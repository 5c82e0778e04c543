import SystemReport.Mqtt.Attribution
import SystemReport.Mqtt.Sessions

/-!
# Verdicts over the whole life of a publisher

`Attribution` follows one worker.  The publisher replaces its worker, network threads die, callers
give up and later calls find a slot that is still taken; the replies of all of them are numbered on.
`verdict_law` says that the verdicts are right all the same: every call hears at most one, and `true`
only when the events of its own message have been handed on.
-/

set_option autoImplicit false

open Machine

namespace SystemReport
namespace Mqtt

/-- What stands behind the verdict `true` for a message. -/
def Delivered (h : History) (m : Message) : Prop :=
  m ∈ h.received ∧ (m.qos = .atMostOnce → (m.reply, .sent) ∈ h.handed) ∧
    (m.qos ≠ .atMostOnce →
      ∃ id, [(m.reply, .announced id), (m.reply, .finished id)].Sublist h.handed)

theorem Vouched.delivered {h : History} {r : Reply} (hr : Vouched h r) :
    ∃ m, m.reply = r ∧ Delivered h m := by
  obtain ⟨m, hm, rfl, hsent, hfinished⟩ := hr
  exact ⟨m, rfl, hm, hsent, hfinished⟩

/-- `Link.Inv` reads one flag of the shared state. -/
theorem Link.Inv.congr {l l' : Link} (h : l.Inv) (hloop : l'.loop = l.loop)
    (hclient : l'.client = l.client) (hhist : l'.hist = l.hist)
    (hconn : l'.shared.connected = l.shared.connected) : l'.Inv := by
  refine ⟨?_, ?_, ?_, ?_⟩
  · rw [hconn, hclient]
    exact h.live
  · rw [hloop, hclient]
    exact h.quiet
  · rw [hloop, hclient, hhist]
    exact h.coherent
  · rw [hhist]
    exact h.vouched

theorem Link.ledger_congr {l l' : Link} (hloop : l'.loop = l.loop) (hhist : l'.hist = l.hist) :
    l'.ledger = l.ledger := by
  rw [ledger, ledger, hloop, hhist]

/-- A verdict stands. -/
theorem Link.verdicts_step {set : Settings} {l l' : Link} {i : Input}
    (hs : l.step set i = some l') : l.hist.verdicts <+: l'.hist.verdicts := by
  obtain ⟨-, hs⟩ := step_eq_some.1 hs
  cases i with
  | stop =>
    obtain ⟨-, hs⟩ := Option.ite_none_right_eq_some.1 hs
    cases hs
    exact List.prefix_rfl
  | message m ok =>
    obtain ⟨-, ⟨-, rfl⟩ | ⟨-, c, -, rfl⟩⟩ := onMessage_eq_some hs
    · exact List.prefix_append _ _
    · exact List.prefix_rfl
  | take =>
    obtain ⟨c, -, rfl⟩ := Option.map_eq_some_iff.1 hs
    exact List.prefix_rfl
  | published =>
    obtain ⟨c, -, rfl⟩ := Option.map_eq_some_iff.1 hs
    exact List.prefix_append _ _
  | connAck =>
    obtain ⟨c, -, ⟨-, rfl⟩ | ⟨-, c', -, rfl⟩⟩ := onConnAck_eq_some hs
    · exact List.prefix_rfl
    · exact List.prefix_rfl
  | pubAck | pubComp | err =>
    cases hs
    exact List.prefix_append _ _
  | other | wake =>
    cases hs
    exact List.prefix_rfl

namespace System

variable {set : Settings} {s t : System} {log : List SessionEvent}

/-- A verdict stands, also when its worker is gone. -/
theorem verdicts_step {a : Act} (hs : s.step set a = some t) :
    s.link.hist.verdicts <+: t.link.hist.verdicts := by
  have hlocked {u : System} (hu : u.link.hist.verdicts = s.link.hist.verdicts) :
      s.link.hist.verdicts <+: (s.locked u).link.hist.verdicts :=
    locked_of (P := fun u => s.link.hist.verdicts <+: u.link.hist.verdicts) List.prefix_rfl
      fun _ => by rw [hu]
  cases moved_of_step hs with
  | worker _ hl => exact Link.verdicts_step hl
  | die | advance | start | stopIdle | signal | verdict | timeout | maintainOff =>
    exact List.prefix_rfl
  | publish | goodbye =>
    rw [onPublish]
    split
    · exact hlocked rfl
    · exact List.prefix_rfl
  | countDrop =>
    refine hlocked ?_
    split <;> rfl
  | send =>
    rw [onSend]
    split <;> exact List.prefix_rfl
  | maintain =>
    refine hlocked ?_
    split <;> rfl
  | stop | tornDown | join => exact hlocked rfl
  | spawn =>
    refine hlocked ?_
    split <;> rfl

/-! ## The bookkeeping of all workers -/

/-- What holds of the worker that runs, and of all verdicts so far. -/
structure Sound (s : System) : Prop where
  inv : s.running = true → s.link.Inv
  vouched : ∀ r, (r, true) ∈ s.link.hist.verdicts → Vouched s.link.hist r
  /-- nobody waits for a worker that is gone -/
  gone : s.running = false → s.link.loop.waiting = []
  kept : s.link.ledger.Kept

namespace Sound

theorem init (set : Settings) (now : Duration) : (init set now).Sound where
  inv h := by cases h
  vouched _ h := absurd h List.not_mem_nil
  gone _ := rfl
  kept := .refl

/-- A step of the calling thread touches the flag only when no thread runs. -/
theorem keep (h : s.Sound) (hloop : t.link.loop = s.link.loop)
    (hclient : t.link.client = s.link.client) (hhist : t.link.hist = s.link.hist)
    (hconn : s.running = true → t.connected = s.connected) : t.Sound := by
  have hrun : t.running = s.running := by rw [running, running, hloop]
  refine ⟨fun hr => ?_, ?_, fun hr => ?_, ?_⟩
  · rw [hrun] at hr
    exact (h.inv hr).congr hloop hclient hhist (hconn hr)
  · rw [hhist]
    exact h.vouched
  · rw [hloop]
    exact h.gone (hrun ▸ hr)
  · rw [Link.ledger_congr hloop hhist]
    exact h.kept

theorem worker (h : s.Sound) {i : Input} {l : Link} (hl : s.link.step set i = some l)
    (ht : t.link = l) : t.Sound := by
  have hrun := running_of_step hl
  have hinv := Link.inv_step (h.inv hrun) hl
  have hphase := (Link.shared_phase_step hl).2
  refine ⟨fun _ => ht ▸ hinv, ht ▸ hinv.vouched, fun hstill => ?_,
    ht ▸ h.kept.trans (Link.reach_ledger (h.inv hrun) hl)⟩
  rw [running, ht, hphase] at hstill
  cases i with
  | stop disconnect =>
    obtain ⟨-, hs⟩ := Option.ite_none_right_eq_some.1 (Link.step_eq_some.1 hl).2
    cases hs
    rw [ht]
    rfl
  | _ => cases hstill

/-- For the account, a thread that dies is one that stops. -/
theorem die (set : Settings) (h : s.Sound) (hrun : s.running = true) (inClock : Bool) :
    (s.onDie inClock).Sound := by
  have hstop : ∃ l, s.link.step set (.stop false) = some l ∧
      l.ledger = (s.onDie inClock).link.ledger := by
    have hawaits : s.link.awaits (.stop false) = true := hrun
    rw [Link.step, if_pos hawaits, Link.next, Link.onStop, if_pos (fun h => by cases h)]
    exact ⟨_, rfl, rfl⟩
  obtain ⟨l, hl, hledger⟩ := hstop
  refine ⟨(fun hr => by cases hr),
    fun r hr => (h.vouched r hr).mono ⟨List.prefix_rfl, List.prefix_rfl⟩, fun _ => rfl, ?_⟩
  exact hledger ▸ h.kept.trans (Link.reach_ledger (h.inv hrun) hl)

/-- A new worker goes on with the record. -/
theorem fresh (h : s.Sound) (hstill : s.running = false)
    (hlink : t.link.loop = .start set ∧ t.link.client = .fresh ∧ t.link.hist = s.link.hist)
    (hconn : t.connected = false) : t.Sound := by
  obtain ⟨hloop, hclient, hhist⟩ := hlink
  have hledger : t.link.ledger = s.link.ledger := by
    rw [Link.ledger, Link.ledger, hloop, hhist, h.gone hstill]
    rfl
  refine ⟨fun _ => ⟨?_, fun _ => ?_, ?_, ?_⟩, ?_, fun _ => ?_, ?_⟩
  · rw [hclient]
    exact hconn
  · rw [hloop, hclient]
    exact ⟨rfl, rfl, rfl, rfl⟩
  · refine coherent_empty _ _ _ ?_ ?_ ?_ ?_ <;>
      first
        | rw [hloop]; rfl
        | rw [hclient]; rfl
  · rw [hhist]
    exact h.vouched
  · rw [hhist]
    exact h.vouched
  · rw [hloop]
    rfl
  · rw [hledger]
    exact h.kept

theorem step (h : s.Sound) (hheld : s.Held) {a : Act} (hs : s.step set a = some t) : t.Sound := by
  have hlocked {u : System} (hu : u.Sound) : (s.locked u).Sound :=
    locked_of (P := Sound) (h.keep rfl rfl rfl fun _ => rfl) fun _ => hu
  have htorn (why : Why) (hstill : s.running = false) : (s.onTornDown why).Sound :=
    hlocked (h.keep rfl rfl rfl fun hr => by rw [hstill] at hr; cases hr)
  cases moved_of_step hs with
  | worker _ hl => exact h.worker hl rfl
  | die hrun => exact h.die set hrun _
  | advance | start | stopIdle | signal | verdict | timeout =>
    exact h.keep rfl rfl rfl fun _ => rfl
  | maintainOff => exact h
  | publish | goodbye =>
    rw [onPublish]
    split
    · exact hlocked (h.keep rfl rfl rfl fun _ => rfl)
    · exact h.keep rfl rfl rfl fun _ => rfl
  | countDrop =>
    refine hlocked ?_
    split <;> exact h.keep rfl rfl rfl fun _ => rfl
  | send =>
    rw [onSend]
    split <;> exact h.keep rfl rfl rfl fun _ => rfl
  | maintain =>
    refine hlocked ?_
    split
    · exact h.keep rfl rfl rfl fun _ => rfl
    · exact h
  | stop => exact hlocked (h.keep rfl rfl rfl fun _ => rfl)
  | @tornDown why hpc hworker =>
    exact htorn why (hheld.gone (by simp [hpc]) (by simp [hpc]) hworker).2
  | @join why _ hstill => exact htorn why hstill
  | spawn hpc =>
    have hstill := hheld.spawning hpc
    refine hlocked ?_
    split
    · exact h.fresh hstill ⟨rfl, rfl, rfl⟩ rfl
    · exact h.keep rfl rfl rfl fun hr => by rw [hstill] at hr; cases hr

end Sound

theorem sound_of_reach {now : Duration} (h : Reachable (step set) (init set now) s) : s.Sound :=
  h.along (J := Held) (fun _ hr => held_of_reach hr) (Sound.init set now)
    fun _ _ _ hheld hi _ hs => hi.step hheld hs

end System

theorem mem_received_of_verdict {h : Ledger Reply Bool} (hkept : h.Kept) {r : Reply} {b : Bool}
    (hr : (r, b) ∈ h.closed) : r ∈ h.opened := by
  have hle : ((h.closed.map Prod.fst : List Reply) : Multiset Reply) ≤ (h.opened : Multiset Reply) := by
    rw [← hkept.balanced.sum, add_comm h.waiting, add_assoc]
    exact Multiset.le_add_right _ _
  exact Multiset.mem_coe.1 (Multiset.mem_of_le hle (Multiset.mem_coe.2 (List.mem_map_of_mem hr)))

/-- **The verdicts of a run.**  In every run of calls and network events, with rebuilds, failed
starts and deaths of the thread: no call hears two verdicts, each verdict answers a message that
`publish()` has made, and `true` says that the events of this very message have been handed on, its
transmission for QoS 0, and the end of its exchange for QoS 1 and 2. -/
theorem verdict_law (set : Settings) (now : Duration) (s : System) (log : List SessionEvent)
    (h : Reachable (logged (System.step set) System.sessionEvents) (System.init set now, [])
      (s, log)) :
    (s.link.hist.verdicts.map Prod.fst).Nodup ∧
      (calledIn log).Pairwise (fun a b => a.1.reply < b.1.reply) ∧
      ∀ r b, (r, b) ∈ s.link.hist.verdicts → ∃ m who, (m, who) ∈ calledIn log ∧ m.reply = r ∧
        (b = true → Delivered s.link.hist m) := by
  have hsound := System.sound_of_reach (h.of_logged fun _ _ _ => trivial)
  have hknown := System.known_of_reach (C := fun _ _ => True) h
  refine ⟨Ledger.closed_nodup hsound.kept, hknown.numbered, fun r b hr => ?_⟩
  cases b with
  | true =>
    obtain ⟨m, rfl, hdelivered⟩ := (hsound.vouched r hr).delivered
    obtain ⟨who, hm⟩ := hknown.received m hdelivered.1
    exact ⟨m, who, hm, rfl, fun _ => hdelivered⟩
  | false =>
    obtain ⟨m, hm, rfl⟩ := List.mem_map.1 (mem_received_of_verdict hsound.kept hr)
    obtain ⟨who, hm⟩ := hknown.received m hm
    exact ⟨m, who, hm, rfl, fun h => by cases h⟩

/-- A report that is transmitted, and another one whose worker, the second one, loses its
connection. -/
def twoWorkers : List Act :=
  [.start, .signal, .spawn .ok, .worker (.connAck [] true), .worker .take, .worker (.published 1),
    .publish "/t/a" "1" none none, .send,
    .worker (.message ⟨"/t/a", "1", .atMostOnce, false, 0⟩ true), .worker .take,
    .worker (.published 0), .verdict true, .die false, .start, .signal, .join, .spawn .ok,
    .worker (.connAck [] true), .publish "/t/b" "2" (some .atLeastOnce) none, .send,
    .worker (.message ⟨"/t/b", "2", .atLeastOnce, false, 1⟩ true), .worker (.err .zero)]

theorem verdict_law_workers : ∃ (s : System) (log : List SessionEvent),
    s.link.hist.verdicts = [(0, true), (1, false)] ∧
    (s.link.hist.verdicts.map Prod.fst).Nodup ∧
    ∃ m who, (m, who) ∈ calledIn log ∧ m.reply = 0 ∧ Delivered s.link.hist m := by
  have hrun : (execWhile (logged (System.step .defaults) System.sessionEvents)
      (fun _ _ => True) (System.init .defaults .zero, []) twoWorkers).isSome := by decide
  obtain ⟨hnodup, -, hverdict⟩ := verdict_law .defaults .zero _ _ (Reach.of_isSome hrun)
  obtain ⟨m, who, hm, hreply, hdelivered⟩ := hverdict 0 true (List.mem_cons_self ..)
  exact ⟨_, _, rfl, hnodup, m, who, hm, hreply, hdelivered rfl⟩

end Mqtt
end SystemReport
