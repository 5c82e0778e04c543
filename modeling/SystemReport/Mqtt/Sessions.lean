import SystemReport.Mqtt.Announce
import SystemReport.Mqtt.Goodbye

/-!
# Sessions

What the client accepts over a whole run, against what `publish()` was called with.  The messages of
`publish()` pass through a channel with one slot, a call may give up waiting while its message is
still in there, and rebuilds throw the channel away; `session_law` says that the client nevertheless
accepts a subsequence of the calls, in their order and each at most once, and that every connection
has the same shape: the online status, then reports, then possibly the goodbye, and nothing after
that.
-/

set_option autoImplicit false

open Machine

namespace SystemReport
namespace Mqtt

/-! ## The log -/

/-- What becomes of the messages of `publish()` calls, and of the connections. -/
inductive SessionEvent
  /-- `publish()` has found a connection and made its message -/
  | called (m : Message) (who : Caller)
  | connAck
  /-- the client has a publication of the worker's own in its channel -/
  | online (p : Publication)
  /-- the client has the message of a call in its channel -/
  | accepted (m : Message) (who : Caller)
deriving DecidableEq

/-- Who has made the call with a given number, whose message the worker has not taken out of the
slot before. -/
def System.sender (s : System) (r : Reply) : Caller :=
  if s.pc.goodbye = some r then .goodbye else .report

/-- The message that `publish()` has made and not sent yet. -/
def Pc.outgoing : Pc → List (Message × Caller)
  | .sending m who => [(m, who)]
  | _ => []

/-- The event of a publication that a step puts into the client's channel. -/
def System.acceptance (s : System) (p : Publication) : SessionEvent :=
  match p.owner with
  | none => .online p
  | some r => .accepted ⟨p.topic, p.payload, p.qos, p.retain, r⟩ (s.sender r)

/-- What a step begins: a call that has found a connection, or a connection. -/
def System.begins (t : System) : Act → List SessionEvent
  | .publish _ _ _ _ | .goodbye => t.pc.outgoing.map fun (m, who) => .called m who
  | .worker (.connAck _ _) => [.connAck]
  | _ => []

/-- The events of a step, the latest first. -/
def System.sessionEvents (s : System) (a : Act) (t : System) : List SessionEvent :=
  ((s.gained t).map s.acceptance).reverse ++ t.begins a

/-- The message of a call, and who made it. -/
def SessionEvent.call : SessionEvent → Option (Message × Caller)
  | .called m who => some (m, who)
  | _ => none

/-- The message that is accepted, and who made it. -/
def SessionEvent.message : SessionEvent → Option (Message × Caller)
  | .accepted m who => some (m, who)
  | _ => none

/-- The calls that found a connection, in order. -/
def calledIn (log : List SessionEvent) : List (Message × Caller) :=
  (log.filterMap SessionEvent.call).reverse

/-- The messages that the client has accepted, in order and on any connection. -/
def acceptedIn (log : List SessionEvent) : List (Message × Caller) :=
  (log.filterMap SessionEvent.message).reverse

/-- What the client has accepted on the latest connection, in order. -/
def session (log : List SessionEvent) : List SessionEvent :=
  ((log.takeWhile (· ≠ .connAck)).filter fun e => e.call.isNone).reverse

/-- The reports of a session, after the online status. -/
def spoken (set : Settings) (reports : List Message) : List SessionEvent :=
  .online ⟨none, set.status, set.online, .atLeastOnce, set.statusRetain⟩ ::
    reports.map fun m => .accepted m .report

/-- What a client accepts on one connection: the online status, then reports, and possibly the
goodbye at the end. -/
inductive Session (set : Settings) : List SessionEvent → Prop
  | begun (reports : List Message) : Session set (spoken set reports)
  | ended (reports : List Message) (goodbye : Message) :
      Session set (spoken set reports ++ [.accepted goodbye .goodbye])

section Log

variable (log : List SessionEvent) (m : Message) (who : Caller) (p : Publication)

@[simp] theorem calledIn_called :
    calledIn (.called m who :: log) = calledIn log ++ [(m, who)] := by
  simp [calledIn, SessionEvent.call]

@[simp] theorem calledIn_connAck : calledIn (.connAck :: log) = calledIn log := rfl
@[simp] theorem calledIn_online : calledIn (.online p :: log) = calledIn log := rfl
@[simp] theorem calledIn_accepted : calledIn (.accepted m who :: log) = calledIn log := rfl

@[simp] theorem acceptedIn_accepted :
    acceptedIn (.accepted m who :: log) = acceptedIn log ++ [(m, who)] := by
  simp [acceptedIn, SessionEvent.message]

@[simp] theorem acceptedIn_connAck : acceptedIn (.connAck :: log) = acceptedIn log := rfl
@[simp] theorem acceptedIn_online : acceptedIn (.online p :: log) = acceptedIn log := rfl
@[simp] theorem acceptedIn_called : acceptedIn (.called m who :: log) = acceptedIn log := rfl

@[simp] theorem session_connAck : session (.connAck :: log) = [] := rfl

@[simp] theorem session_called : session (.called m who :: log) = session log := by
  simp [session, SessionEvent.call]

@[simp] theorem session_online : session (.online p :: log) = session log ++ [.online p] := by
  simp [session, SessionEvent.call]

@[simp] theorem session_accepted :
    session (.accepted m who :: log) = session log ++ [.accepted m who] := by
  simp [session, SessionEvent.call]

end Log

/-- A session without a goodbye goes on. -/
theorem Session.accept {set : Settings} {events : List SessionEvent} (h : Session set events)
    (hopen : ∀ goodbye, .accepted goodbye .goodbye ∉ events) (m : Message) (who : Caller) :
    Session set (events ++ [.accepted m who]) := by
  cases h with
  | begun reports =>
    cases who with
    | report =>
      have hnext : spoken set reports ++ [.accepted m .report] = spoken set (reports ++ [m]) := by
        simp [spoken]
      rw [hnext]
      exact begun _
    | goodbye => exact ended reports m
  | ended reports goodbye => exact absurd (by simp) (hopen goodbye)

/-! ## The calls -/

/-- The messages that are received. -/
theorem Link.received_step {set : Settings} {l l' : Link} {i : Input}
    (hs : l.step set i = some l') : l'.hist.received = l.hist.received ∨
      ∃ m ok, i = .message m ok ∧ l'.hist.received = l.hist.received ++ [m] := by
  obtain ⟨-, hs⟩ := step_eq_some.1 hs
  cases i with
  | stop =>
    obtain ⟨-, hs⟩ := Option.ite_none_right_eq_some.1 hs
    cases hs
    exact .inl rfl
  | message m ok =>
    obtain ⟨-, ⟨-, rfl⟩ | ⟨-, c, -, rfl⟩⟩ := onMessage_eq_some hs
    · exact .inr ⟨m, ok, rfl, rfl⟩
    · exact .inr ⟨m, ok, rfl, rfl⟩
  | take | published =>
    obtain ⟨c, -, rfl⟩ := Option.map_eq_some_iff.1 hs
    exact .inl rfl
  | connAck =>
    obtain ⟨c, -, ⟨-, rfl⟩ | ⟨-, c', -, rfl⟩⟩ := onConnAck_eq_some hs
    · exact .inl rfl
    · exact .inl rfl
  | pubAck | pubComp | err | other | wake =>
    cases hs
    exact .inl rfl

namespace System

variable {set : Settings} {s t : System} {log : List SessionEvent}

theorem call_acceptance (s : System) (p : Publication) : (s.acceptance p).call = none := by
  rw [acceptance]
  split <;> rfl

/-- What is put into the channel is the worker's own, or the message of a call. -/
@[simp] theorem acceptance_announcement (s : System) :
    s.acceptance set.announcement =
      .online ⟨none, set.status, set.online, .atLeastOnce, set.statusRetain⟩ := rfl

@[simp] theorem acceptance_publication (s : System) (m : Message) :
    s.acceptance m.publication = .accepted m (s.sender m.reply) := rfl

theorem sessionEvents_of_gained {a : Act} (h : s.gained t = []) :
    s.sessionEvents a t = t.begins a := by
  rw [sessionEvents, h]
  rfl

/-- Only the network thread puts anything into the channel. -/
theorem sessionEvents_eq {a : Act} (hs : s.step set a = some t) (ha : ∀ i, a ≠ .worker i) :
    s.sessionEvents a t = t.begins a :=
  sessionEvents_of_gained (gained_eq_nil hs ha)

/-- No call is made by the network thread. -/
theorem call_of_worker {i : Input} {e : SessionEvent} (he : e ∈ s.sessionEvents (.worker i) t) :
    e.call = none := by
  rcases List.mem_append.1 he with he | he
  · obtain ⟨p, -, rfl⟩ := List.mem_map.1 (List.mem_reverse.1 he)
    exact s.call_acceptance p
  · cases i with
    | connAck =>
      obtain rfl := List.mem_singleton.1 he
      rfl
    | _ => cases he

theorem calledIn_worker (s : System) (i : Input) (t : System) (log : List SessionEvent) :
    calledIn (s.sessionEvents (.worker i) t ++ log) = calledIn log := by
  rw [calledIn, List.filterMap_append,
    List.filterMap_eq_nil_iff.2 fun e he => call_of_worker he]
  rfl

/-- The messages that are on their way, or have been received, are messages of calls, and these are
numbered. -/
structure Known (s : System) (log : List SessionEvent) : Prop where
  numbered : (calledIn log).Pairwise fun a b => a.1.reply < b.1.reply
  below : ∀ call ∈ calledIn log, call.1.reply < s.calls
  inHand : ∀ call ∈ s.pc.outgoing, call ∈ calledIn log
  slot : ∀ m, s.slot = some m → ∃ who, (m, who) ∈ calledIn log
  received : ∀ m ∈ s.link.hist.received, ∃ who, (m, who) ∈ calledIn log

namespace Known

theorem init (set : Settings) (now : Duration) : (init set now).Known [] where
  numbered := .nil
  below _ h := absurd h List.not_mem_nil
  inHand _ h := absurd h List.not_mem_nil
  slot _ h := by cases h
  received _ h := absurd h List.not_mem_nil

/-- A step that makes no message and receives none. -/
theorem keep (h : s.Known log) (hcalls : s.calls ≤ t.calls)
    (hout : ∀ call ∈ t.pc.outgoing, call ∈ s.pc.outgoing)
    (hslot : ∀ m, t.slot = some m → s.slot = some m)
    (hreceived : t.link.hist.received = s.link.hist.received) : t.Known log :=
  ⟨h.numbered, fun call hcall => (h.below call hcall).trans_le hcalls,
    fun call hcall => h.inHand call (hout call hcall), fun m hm => h.slot m (hslot m hm),
    by rw [hreceived]; exact h.received⟩

/-- The calling thread goes on without a message in hand. -/
theorem goOn (h : s.Known log) (hcalls : s.calls ≤ t.calls) (hout : t.pc.outgoing = [])
    (hslot : t.slot = s.slot) (hlink : t.link.hist = s.link.hist) : t.Known log :=
  h.keep hcalls (by simp [hout]) (by simp [hslot]) (by rw [hlink])

theorem publish (h : s.Known log) (topic payload : String) (qos : QoS) (retain : Bool)
    (who : Caller) {t : System} (ht : t = s.onPublish topic payload qos retain who) :
    t.Known ((t.pc.outgoing.map fun (m, who) => .called m who) ++ log) := by
  have hdrop : ({ s with calls := s.calls + 1, pc := .dropping who } : System).Known log :=
    h.goOn (Nat.le_succ _) rfl rfl rfl
  have hpanic : ({ s with pc := .panicked } : System).Known log := h.goOn le_rfl rfl rfl rfl
  subst ht
  rw [onPublish]
  split
  · refine locked_of (P := fun t => t.Known ((t.pc.outgoing.map fun (m, who) => .called m who)
      ++ log)) hpanic fun _ => ?_
    cases s.connected with
    | false => exact hdrop
    | true =>
      have hmem {m : Message} : (∃ who, (m, who) ∈ calledIn log) →
          ∃ who', (m, who') ∈ calledIn log ++ [(⟨topic, payload, qos, retain, s.calls⟩, who)] := by
        rintro ⟨who, hm⟩
        exact ⟨who, List.mem_append_left _ hm⟩
      simp only [if_true, Pc.outgoing, List.map_cons, List.map_nil, List.singleton_append]
      refine ⟨?_, fun call hcall => ?_, fun call hcall => ?_, fun m hm => ?_, fun m hm => ?_⟩ <;>
        rw [calledIn_called] at *
      · refine List.pairwise_append.2 ⟨h.numbered, List.pairwise_singleton _ _, ?_⟩
        intro call hcall new hnew
        rw [List.mem_singleton.1 hnew]
        exact h.below call hcall
      · rcases List.mem_append.1 hcall with hcall | hcall
        · exact (h.below call hcall).trans (Nat.lt_succ_self _)
        · rw [List.mem_singleton.1 hcall]
          exact Nat.lt_succ_self _
      · exact List.mem_append_right _ hcall
      · exact hmem (h.slot m hm)
      · exact hmem (h.received m hm)
  · exact hdrop

/-- The worker receives what is in the slot. -/
theorem worker (h : s.Known log) {i : Input} {l : Link} (hadmits : s.admits i = true)
    (hl : s.link.step set i = some l) (ht : t = { s with link := l, slot := s.slotAfter i }) :
    t.Known (s.sessionEvents (.worker i) t ++ log) := by
  have hcalled := calledIn_worker s i t log
  subst ht
  refine ⟨?_, ?_, ?_, fun m hm => ?_, fun m hm => ?_⟩ <;> rw [hcalled]
  · exact h.numbered
  · exact h.below
  · exact h.inHand
  · refine h.slot m ?_
    cases i with
    | message => cases hm
    | _ => exact hm
  · rcases Link.received_step hl with heq | ⟨m', ok, rfl, heq⟩
    · exact h.received m (heq ▸ hm)
    · have hslot : s.slot = some m' := by simpa [admits] using hadmits
      rcases List.mem_append.1 (heq ▸ hm) with hm | hm
      · exact h.received m hm
      · rw [List.mem_singleton.1 hm]
        exact h.slot m' hslot

/-- **Every step keeps it.** -/
theorem step (h : s.Known log) {a : Act} (hs : s.step set a = some t) :
    t.Known (s.sessionEvents a t ++ log) := by
  have hlocked {u : System} (hu : u.Known log) : (s.locked u).Known log :=
    locked_of (P := fun u => u.Known log) (h.goOn le_rfl rfl rfl rfl) fun _ => hu
  by_cases hother : ∀ i, a ≠ .worker i
  case neg =>
    obtain ⟨i, rfl⟩ : ∃ i, a = .worker i := by simpa using hother
    cases moved_of_step hs with
    | worker hadmits hl => exact h.worker hadmits hl rfl
  rw [sessionEvents_eq hs hother]
  cases moved_of_step hs with
  | @worker i => exact absurd rfl (hother i)
  | die | advance => exact h.keep le_rfl (fun _ => id) (fun _ => id) rfl
  | maintainOff => exact h
  | publish | goodbye => exact h.publish _ _ _ _ _ rfl
  | @countDrop who =>
    refine hlocked ?_
    split <;> refine h.goOn le_rfl ?_ rfl rfl <;> cases who <;> rfl
  | @send m who hpc =>
    have hin : (m, who) ∈ calledIn log := h.inHand _ (by simp [hpc, Pc.outgoing])
    rw [onSend]
    split
    · refine ⟨h.numbered, h.below, fun _ hcall => absurd hcall List.not_mem_nil, fun m' hm' => ?_,
        h.received⟩
      cases hm'
      exact ⟨who, hin⟩
    · refine h.goOn le_rfl ?_ rfl rfl
      cases who <;> rfl
  | @verdict _ _ who | @timeout _ who =>
    refine h.goOn le_rfl ?_ rfl rfl
    cases who <;> rfl
  | start | stopIdle | signal => exact h.goOn le_rfl rfl rfl rfl
  | maintain =>
    refine hlocked ?_
    split
    · exact h.goOn le_rfl rfl rfl rfl
    · exact h
  | stop =>
    refine hlocked (h.goOn le_rfl ?_ rfl rfl)
    cases s.connected <;> rfl
  | @tornDown why | @join why =>
    refine hlocked (h.goOn le_rfl ?_ rfl rfl)
    cases why <;> rfl
  | spawn =>
    refine hlocked ?_
    split
    · exact h.keep le_rfl (fun _ hcall => absurd hcall List.not_mem_nil) (fun _ hm => by cases hm) rfl
    · exact h.goOn le_rfl rfl rfl rfl

/-- A number stands for one call. -/
theorem call_eq (h : s.Known log) {call call' : Message × Caller} (hcall : call ∈ calledIn log)
    (hcall' : call' ∈ calledIn log) (heq : call.1.reply = call'.1.reply) : call = call' := by
  have hnodup : ((calledIn log).map fun call => call.1.reply).Nodup :=
    List.pairwise_map.2 (h.numbered.imp fun hlt => hlt.ne)
  exact List.inj_on_of_nodup_map hnodup hcall hcall' heq

end Known

theorem known_of_reach {now : Duration} {C : System → Act → Prop}
    (h : Reach (logged (step set) sessionEvents) (fun p => C p.1) (init set now, [])
      (s, log)) : s.Known log := by
  refine h.logged_invariant (I := Known) (C := C) (fun _ _ ha => ha) (Known.init set now) ?_
  exact fun _ _ _ _ _ hi _ hs => hi.step hs

end System

/-! ## What holds after every step -/

namespace System

/-- The message in the slot of a running worker. -/
def inSlot (s : System) : List (Message × Caller) :=
  if s.running then s.slot.toList.map fun m => (m, s.sender m.reply) else []

/-- The client will not accept anything after the goodbye. -/
def Closed (s : System) (goodbye : Message) : Prop :=
  s.running = true → s.connected = true → s.pc.goodbye = some goodbye.reply ∧ s.slot = none

/-- What holds after every step. -/
structure Speaks (set : Settings) (s : System) (log : List SessionEvent) : Prop where
  /-- what is accepted or still in the slot was called, in this order -/
  order : ∃ sent, calledIn log = sent ++ s.pc.outgoing ∧
    (acceptedIn log ++ s.inSlot).Sublist sent
  goodbye : ∀ m, (m, .goodbye) ∈ calledIn log → IsGoodbye set m
  session : .connAck ∈ log → Session set (session log)
  established : s.running = true → s.connected = true → .connAck ∈ log
  closed : ∀ m, .accepted m .goodbye ∈ Mqtt.session log → s.Closed m

namespace Speaks

variable {set : Settings} {s t : System} {log : List SessionEvent}

theorem init (set : Settings) (now : Duration) : (init set now).Speaks set [] where
  order := ⟨[], rfl, .slnil⟩
  goodbye _ h := absurd h List.not_mem_nil
  session h := absurd h List.not_mem_nil
  established h := by cases h
  closed _ h := absurd h List.not_mem_nil

theorem inSlot_eq (hrun : t.running = s.running) (hslot : t.slot = s.slot)
    (hgoodbye : s.running = true → t.pc.goodbye = s.pc.goodbye) : t.inSlot = s.inSlot := by
  rw [inSlot, inSlot, hrun]
  split
  · rename_i h
    simp only [hslot, sender, hgoodbye h]
  · rfl

/-- A step that neither makes nor moves a message, and sets up no connection. -/
theorem keep (h : s.Speaks set log) (hrun : t.running = s.running)
    (hconn : t.connected = true → s.connected = true) (hslot : t.slot = s.slot)
    (hgoodbye : s.running = true → t.pc.goodbye = s.pc.goodbye)
    (hout : t.pc.outgoing = s.pc.outgoing) : t.Speaks set log := by
  refine ⟨?_, h.goodbye, h.session, fun hr hc => h.established (hrun ▸ hr) (hconn hc),
    fun m hm hr hc => ?_⟩
  · rw [hout, inSlot_eq hrun hslot hgoodbye]
    exact h.order
  · rw [hrun] at hr
    rw [hgoodbye hr, hslot]
    exact h.closed m hm hr (hconn hc)

/-- After a step that leaves no thread running, the slot does not count. -/
theorem gone (h : s.Speaks set log) (hstill : t.running = false)
    (hout : t.pc.outgoing = s.pc.outgoing) : t.Speaks set log := by
  have hnot : ¬ t.running = true := by simp [hstill]
  refine ⟨?_, h.goodbye, h.session, fun hr => absurd hr hnot, fun m _ hr => absurd hr hnot⟩
  obtain ⟨sent, hsent, hsub⟩ := h.order
  refine ⟨sent, by rw [hsent, hout], ?_⟩
  rw [inSlot, if_neg hnot, List.append_nil]
  exact (List.sublist_append_left _ _).trans hsub

theorem panicked (h : s.Speaks set log) (hgoodbye : s.running = true → s.pc.goodbye = none)
    (hout : s.pc.outgoing = []) : ({ s with pc := .panicked } : System).Speaks set log :=
  h.keep rfl id rfl (fun hr => (hgoodbye hr).symm) hout.symm

/-! ### The calling thread -/

/-- `publish()` makes its message, if there is a connection. -/
theorem publish (h : s.Speaks set log) (hgoodbye : s.pc.goodbye = none) (hout : s.pc.outgoing = [])
    {topic payload : String} {qos : QoS} {retain : Bool} {who : Caller}
    (ht : t = s.onPublish topic payload qos retain who)
    (hwho : who = .goodbye → IsGoodbye set ⟨topic, payload, qos, retain, s.calls⟩) :
    t.Speaks set ((t.pc.outgoing.map fun (m, who) => .called m who) ++ log) := by
  have hdrop : ({ s with calls := s.calls + 1, pc := .dropping who } : System).Speaks set log :=
    h.keep rfl id rfl (fun _ => by rw [hgoodbye]; cases who <;> rfl) hout.symm
  subst ht
  rw [onPublish]
  split
  · refine locked_of (P := fun t => t.Speaks set ((t.pc.outgoing.map fun (m, who) => .called m who)
      ++ log)) (h.panicked (fun _ => hgoodbye) hout) fun _ => ?_
    cases hconn : s.connected with
    | false => exact hdrop
    | true =>
      obtain ⟨sent, hsent, hsub⟩ := h.order
      rw [hout, List.append_nil] at hsent
      have hslot : ({ s with
          calls := s.calls + 1
          pc := .sending ⟨topic, payload, qos, retain, s.calls⟩ who } : System).inSlot = s.inSlot :=
        inSlot_eq rfl rfl fun _ => hgoodbye.symm
      refine ⟨⟨sent, ?_, ?_⟩, ?_, ?_, ?_, ?_⟩
      · simp [Pc.outgoing, hsent]
      · simpa [Pc.outgoing, hslot] using hsub
      · intro m hm
        have hm : (m, .goodbye) ∈ calledIn log ++ [(⟨topic, payload, qos, retain, s.calls⟩, who)] := by
          simpa [Pc.outgoing] using hm
        rcases List.mem_append.1 hm with hm | hm
        · exact h.goodbye m hm
        · cases List.mem_singleton.1 hm
          exact hwho rfl
      · simpa [Pc.outgoing] using h.session
      · intro hrun hc
        simpa [Pc.outgoing] using h.established hrun hc
      · intro m hm hrun hc
        have hm : .accepted m .goodbye ∈ Mqtt.session log := by simpa [Pc.outgoing] using hm
        exact absurd (h.closed m hm hrun hc).1 (by simp [hgoodbye])
  · exact hdrop

/-- `try_send` puts the message into the slot, or gives it up. -/
theorem send (h : s.Speaks set log) {m : Message} {who : Caller} (hpc : s.pc = .sending m who) :
    (s.onSend m who).Speaks set log := by
  obtain ⟨sent, hsent, hsub⟩ := h.order
  rw [hpc, Pc.outgoing] at hsent
  have hnone : s.pc.goodbye = none := by rw [hpc]; rfl
  have hopen : ∀ g, .accepted g .goodbye ∈ Mqtt.session log →
      ¬ (s.running = true ∧ s.connected = true) :=
    fun g hg ⟨hrun, hc⟩ => absurd (h.closed g hg hrun hc).1 (by simp [hnone])
  rw [onSend]
  split
  · rename_i hfree
    refine ⟨⟨sent ++ [(m, who)], by simp [hsent, Pc.outgoing], ?_⟩, h.goodbye,
      h.session, h.established, fun g hg hrun hc => absurd ⟨hrun, hc⟩ (hopen g hg)⟩
    have hslot : ({ s with slot := some m, pc := .waiting m.reply who } : System).inSlot =
        [(m, who)] := by
      have hrun : ({ s with slot := some m, pc := .waiting m.reply who } : System).running = true :=
        hfree.2
      rw [inSlot, if_pos hrun]
      cases who <;> simp [sender, Pc.goodbye]
    rw [hslot]
    exact ((List.sublist_append_left _ _).trans hsub).append_right _
  · refine ⟨⟨sent ++ [(m, who)], ?_, ?_⟩, h.goodbye, h.session, h.established,
      fun g hg hrun hc => absurd ⟨hrun, hc⟩ (hopen g hg)⟩
    · cases who <;> simp [hsent, Pc.outgoing, Caller.return]
    · have hslot : ({ s with pc := Caller.return none who } : System).inSlot = s.inSlot :=
        inSlot_eq rfl rfl fun _ => by rw [hnone]; cases who <;> rfl
      rw [hslot]
      exact hsub.trans (List.sublist_append_left _ _)

/-! ### The network thread -/

/-- The worker takes a message out of the slot. -/
theorem message (h : s.Speaks set log) {m : Message} {ok : Bool} {l : Link}
    (hrun : s.running = true) (hslot : s.slot = some m)
    (hawaits : s.link.awaits (.message m ok) = true) (hl : s.link.onMessage set m ok = some l) :
    ({ s with link := l, slot := none } : System).Speaks set
      (s.sessionEvents (.worker (.message m ok)) { s with link := l, slot := none } ++ log) := by
  obtain ⟨sent, hsent, hsub⟩ := h.order
  have hin : s.inSlot = [(m, s.sender m.reply)] := by rw [inSlot, if_pos hrun, hslot]; rfl
  have hout : ({ s with link := l, slot := none } : System).inSlot = [] := by
    rw [inSlot]
    split <;> rfl
  have hsame : l.shared.connected = true → s.link.shared.connected = true := by
    rw [(Link.shared_phase_step (Link.step_eq_some.2 ⟨hawaits, hl⟩)).1]
    exact id
  rw [hin] at hsub
  rcases Link.gained_message hl with hnone | ⟨hconn, hsome⟩
  · rw [sessionEvents_of_gained (t := { s with link := l, slot := none }) hnone]
    refine ⟨⟨sent, hsent, ?_⟩, h.goodbye, h.session, fun hr hc => h.established hrun (hsame hc),
      fun g hg hr hc => ⟨(h.closed g hg hrun (hsame hc)).1, rfl⟩⟩
    rw [hout, List.append_nil]
    exact (List.sublist_append_left _ _).trans hsub
  · have hevents : s.sessionEvents (.worker (.message m ok)) { s with link := l, slot := none } =
        [.accepted m (s.sender m.reply)] := by
      rw [sessionEvents, gained, hsome]
      rfl
    rw [hevents, List.singleton_append]
    have hopen : ∀ g, .accepted g .goodbye ∉ Mqtt.session log := fun g hg => by
      have := (h.closed g hg hrun hconn).2
      rw [hslot] at this
      cases this
    have hbegun : .connAck ∈ log := h.established hrun hconn
    refine ⟨⟨sent, by simpa using hsent, ?_⟩, by simpa using h.goodbye, fun _ => ?_,
      fun _ _ => List.mem_cons_of_mem _ hbegun, fun g hg _ _ => ⟨?_, rfl⟩⟩
    · rw [hout, List.append_nil, acceptedIn_accepted]
      exact hsub
    · rw [session_accepted]
      exact (h.session hbegun).accept hopen m _
    · rw [session_accepted, List.mem_append] at hg
      obtain ⟨rfl, hsender⟩ : g = m ∧ Caller.goodbye = s.sender m.reply := by
        simpa using hg.resolve_left (hopen g)
      by_contra hnot
      rw [sender, if_neg hnot] at hsender
      cases hsender

/-- A step of the worker that accepts nothing, on the same connection or with none. -/
theorem quiet (h : s.Speaks set log) {l : Link} {slot : Option Message} (hslot : slot = s.slot)
    (hrun : s.running = true) (hrun' : l.loop.phase ≠ .finished)
    (hconn : l.shared.connected = true → s.connected = true) :
    ({ s with link := l, slot := slot } : System).Speaks set log := by
  have hrunning : ({ s with link := l, slot := slot } : System).running = true := by
    simpa [running] using hrun'
  exact h.keep (hrunning.trans hrun.symm) hconn hslot (fun _ => rfl) rfl

theorem worker {validTopic : String → Prop} (hvalid : validTopic set.status)
    (h : s.Speaks set log) (hready : s.link.Ready) {i : Input} {l : Link}
    (hadmits : s.admits i = true) (honline : AcceptsOnline validTopic set s (.worker i))
    (hl : s.link.step set i = some l) (ht : t = { s with link := l, slot := s.slotAfter i }) :
    t.Speaks set (s.sessionEvents (.worker i) t ++ log) := by
  have hrun := running_of_step hl
  obtain ⟨hshared, hphase⟩ := Link.shared_phase_step hl
  have hquiet (hmsg : ∀ m ok, i ≠ .message m ok) (hack : ∀ rs ok, i ≠ .connAck rs ok) :
      s.sessionEvents (.worker i) t = t.begins (.worker i) :=
    sessionEvents_of_gained (ht ▸ Link.gained_other hl hmsg hack)
  subst ht
  cases i with
  | stop disconnect =>
    rw [hquiet (by simp) (by simp)]
    refine h.gone ?_ rfl
    simp [running, hphase, Link.phaseAfter]
  | err now =>
    rw [hquiet (by simp) (by simp)]
    refine h.quiet rfl hrun (by simp [hphase, Link.phaseAfter]) fun hc => ?_
    rw [hshared, Link.sharedAfter, State.connected_onErr] at hc
    cases hc
  | message m ok =>
    have hslot : s.slot = some m := by simpa [admits] using hadmits
    obtain ⟨hawaits, hl⟩ := Link.step_eq_some.1 hl
    exact h.message hrun hslot hawaits hl
  | connAck resumed ok =>
    have hok : ok = true := by
      obtain ⟨c, hc, -⟩ := Link.onConnAck_eq_some (Link.step_eq_some.1 hl).2
      have hroom := Link.accepts_online hready hc
      by_contra hno
      have hfull := honline (by simpa using hno) hvalid c hc
      omega
    subst hok
    have hevents : s.sessionEvents (.worker (.connAck resumed true))
        { s with link := l, slot := s.slotAfter (.connAck resumed true) } =
          [s.acceptance set.announcement, .connAck] := by
      rw [sessionEvents, gained, Link.gained_connAck (Link.step_eq_some.1 hl).2]
      rfl
    rw [hevents, acceptance_announcement, List.cons_append, List.singleton_append]
    have hrunning : ({ s with link := l, slot := s.slot } : System).running = s.running := by
      rw [hrun]
      simp [running, hphase, Link.phaseAfter]
    have hin : ({ s with link := l, slot := s.slot } : System).inSlot = s.inSlot :=
      inSlot_eq hrunning rfl fun _ => rfl
    refine ⟨?_, by simpa using h.goodbye,
      fun _ => ?_, fun _ _ => by simp, fun m hm => ?_⟩
    · rw [show ({ s with link := l, slot := s.slotAfter (.connAck resumed true) } : System).inSlot =
        s.inSlot from hin]
      exact h.order
    · simpa [spoken] using @Session.begun set []
    · simp at hm
  | take | published | pubAck | pubComp | other | wake =>
    rw [hquiet (by simp) (by simp)]
    refine h.quiet rfl hrun (by simp [hphase, Link.phaseAfter]) fun hc => ?_
    rwa [hshared] at hc

/-- **Every step keeps it.** -/
theorem step {validTopic : String → Prop} (hvalid : validTopic set.status) (h : s.Speaks set log)
    (hheld : s.Held) (hready : s.link.Ready) {a : Act} (honline : AcceptsOnline validTopic set s a)
    (hs : s.step set a = some t) : t.Speaks set (s.sessionEvents a t ++ log) := by
  by_cases hother : ∀ i, a ≠ .worker i
  case neg =>
    obtain ⟨i, rfl⟩ : ∃ i, a = .worker i := by simpa using hother
    cases moved_of_step hs with
    | worker hadmits hl => exact h.worker hvalid hready hadmits honline hl rfl
  rw [sessionEvents_eq hs hother]
  cases moved_of_step hs with
  | @worker i => exact absurd rfl (hother i)
  | die => exact h.gone rfl rfl
  | advance => exact h.keep rfl id rfl (fun _ => rfl) rfl
  | publish hpc => exact h.publish (by rw [hpc]; rfl) (by rw [hpc]; rfl) rfl nofun
  | goodbye hpc =>
    exact h.publish (by rw [hpc]; rfl) (by rw [hpc]; rfl) rfl fun _ => ⟨rfl, rfl, rfl, rfl⟩
  | @countDrop who hpc =>
    refine locked_of (P := fun t => t.Speaks set log)
      (h.panicked (fun _ => by rw [hpc]; rfl) (by rw [hpc]; rfl)) fun _ => ?_
    have hgoodbye : (Caller.return none who).goodbye = s.pc.goodbye := by
      rw [hpc]
      cases who <;> rfl
    have hout : (Caller.return none who).outgoing = s.pc.outgoing := by
      rw [hpc]
      cases who <;> rfl
    split <;> exact h.keep rfl id rfl (fun _ => hgoodbye) hout
  | send hpc => exact h.send hpc
  | @verdict r _ who hpc | @timeout r who hpc =>
    refine h.keep rfl id rfl (fun _ => ?_) ?_ <;>
      rw [hpc] <;>
      cases who <;>
      rfl
  | start hpc | stopIdle hpc =>
    exact h.keep rfl id rfl (fun _ => by rw [hpc]; rfl) (by rw [hpc]; rfl)
  | maintain hpc =>
    refine locked_of (P := fun t => t.Speaks set log)
      (h.panicked (fun _ => by rw [hpc]; rfl) (by rw [hpc]; rfl)) fun _ => ?_
    split
    · exact h.keep rfl id rfl (fun _ => by rw [hpc]; rfl) (by rw [hpc]; rfl)
    · exact h
  | maintainOff => exact h
  | stop hpc =>
    refine locked_of (P := fun t => t.Speaks set log)
      (h.panicked (fun _ => by rw [hpc]; rfl) (by rw [hpc]; rfl)) fun _ => ?_
    refine h.keep rfl id rfl (fun _ => ?_) ?_ <;>
      rw [hpc] <;>
      cases s.connected <;>
      rfl
  | @signal why hpc =>
    refine h.keep rfl id rfl (fun _ => ?_) ?_ <;>
      rw [hpc] <;>
      cases why <;>
      rfl
  | @tornDown why hpc hworker =>
    have hstill := (hheld.gone (by simp [hpc]) (by simp [hpc]) hworker).2
    refine locked_of (P := fun t => t.Speaks set log) (h.gone hstill (by rw [hpc]; rfl))
      fun _ => h.gone hstill ?_
    rw [hpc]
    cases why <;> rfl
  | @join why hpc hstill =>
    refine locked_of (P := fun t => t.Speaks set log) (h.gone hstill (by rw [hpc]; rfl))
      fun _ => h.gone hstill ?_
    rw [hpc]
    cases why <;> rfl
  | @spawn outcome hpc =>
    have hstill := hheld.spawning hpc
    refine locked_of (P := fun t => t.Speaks set log) (h.gone hstill (by rw [hpc]; rfl))
      fun _ => ?_
    split
    · -- the new worker has an empty slot and no connection
      have hgone : ({ s with pc := .idle } : System).Speaks set log :=
        h.gone hstill (by rw [hpc]; rfl)
      obtain ⟨sent, hsent, hsub⟩ := hgone.order
      have hin : ({ s with pc := .idle } : System).inSlot = [] := by
        rw [inSlot, if_neg]
        simpa [running] using hstill
      rw [hin] at hsub
      refine ⟨⟨sent, hsent, hsub⟩, h.goodbye, h.session, fun _ hc => ?_,
        fun _ _ _ hc => ?_⟩ <;>
        cases hc
    · exact h.gone hstill (by rw [hpc]; rfl)

end Speaks

theorem speaks_of_reach {set : Settings} {validTopic : String → Prop}
    (hvalid : validTopic set.status) {now : Duration} {s : System} {log : List SessionEvent}
    (h : Reach (logged (step set) sessionEvents) (fun p => AcceptsOnline validTopic set p.1)
      (init set now, []) (s, log)) : s.Speaks set log := by
  refine h.logged_invariant (I := System.Speaks set) (C := AcceptsOnline validTopic set)
    (fun _ _ ha => ha) (Speaks.init set now) fun t log a t' hr hi hc hs => ?_
  refine hi.step hvalid (held_of_reach (hr.mono fun _ _ _ => trivial)) ?_ hc hs
  obtain ⟨events, hevents⟩ := hr.exists_logged workerEvents []
  exact (announces_of_reach hvalid hevents).ready

end System

/-- **The sessions of a run.**  In every run of calls and network events, with rebuilds, failed
starts and deaths of the thread: on every connection the client accepts the online status, then
reports, and possibly one goodbye, which is the last; what it accepts are calls of `publish()`, in
the order of the calls and each at most once; and a goodbye is the offline status. -/
theorem session_law (set : Settings) (validTopic : String → Prop) (hvalid : validTopic set.status)
    (now : Duration) (s : System) (log : List SessionEvent)
    (h : Reach (logged (System.step set) System.sessionEvents)
      (fun p => AcceptsOnline validTopic set p.1) (System.init set now, []) (s, log)) :
    (.connAck ∈ log → Session set (session log)) ∧
      (acceptedIn log).Sublist (calledIn log) ∧
      (calledIn log).Pairwise (fun a b => a.1.reply < b.1.reply) ∧
      ∀ m, (m, .goodbye) ∈ acceptedIn log → System.IsGoodbye set m := by
  have hspeaks := System.speaks_of_reach hvalid h
  obtain ⟨sent, hsent, hsub⟩ := hspeaks.order
  have hsub : (acceptedIn log).Sublist (calledIn log) := by
    rw [hsent]
    exact (List.sublist_append_left _ _).trans (hsub.trans (List.sublist_append_left _ _))
  exact ⟨hspeaks.session, hsub, (System.known_of_reach h).numbered,
    fun m hm => hspeaks.goodbye m (hsub.subset hm)⟩

/-- A report whose caller gives up waiting, and the goodbye. -/
theorem session_law_goodbye : ∃ log,
    session log =
      [.online ⟨none, "/host/oper_state/status", "online", .atLeastOnce, true⟩,
        .accepted ⟨"/host/oper_uptime_minutes", "5", .atMostOnce, false, 0⟩ .report,
        .accepted ⟨"/host/oper_state/status", "offline", .atLeastOnce, true, 1⟩ .goodbye] ∧
      Session .defaults (session log) := by
  have hrun : Reach (logged (System.step .defaults) System.sessionEvents)
      (fun p => AcceptsOnline (fun _ => True) .defaults p.1) (System.init .defaults .zero, []) _ :=
    (((((((((((Reach.refl.snoc (a := .start) trivial rfl).snoc (a := .signal) trivial rfl).snoc
      (a := .spawn .ok) trivial rfl).snoc (a := .worker (.connAck [] true)) nofun rfl).snoc
      (a := .publish "/host/oper_uptime_minutes" "5" none none) trivial rfl).snoc
      (a := .send) trivial rfl).snoc (a := .timeout) trivial rfl).snoc
      (a := .worker (.message ⟨"/host/oper_uptime_minutes", "5", .atMostOnce, false, 0⟩ true))
      trivial rfl).snoc (a := .stop) trivial rfl).snoc (a := .goodbye) trivial rfl).snoc
      (a := .send) trivial rfl).snoc
      (a := .worker (.message ⟨"/host/oper_state/status", "offline", .atLeastOnce, true, 1⟩ true))
      trivial rfl
  exact ⟨_, rfl, (session_law .defaults (fun _ => True) trivial .zero _ _ hrun).1 (by decide)⟩

end Mqtt
end SystemReport
