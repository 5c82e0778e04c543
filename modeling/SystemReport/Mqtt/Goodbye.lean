import SystemReport.Mqtt.Publisher

/-!
# The goodbye of `stop()`

`stop()` publishes the offline status through the ordinary `publish()` path and then lets the
worker send a `DISCONNECT`, which makes the broker discard the last will.  The `DISCONNECT` does not
wait for the goodbye: it goes out whenever the flag is set, whatever became of the message.

`goodbye_before_disconnect` says when the goodbye is always accepted first, as conditions on single
steps (`Heard`).  During `stop()` a connection is only made while the goodbye is still on its way to
the worker; and while there is a connection, the slot is free when the goodbye is sent, the worker
takes it out before it turns to the stop signal, and there is then room below the cap and in the
client's channel.  `refusedGoodbye_silent` is a run in which the cap refuses it.
-/

set_option autoImplicit false

open Machine

namespace SystemReport
namespace Mqtt

/-- The calling thread is in `stop()`. -/
def Pc.inStop : Pc → Bool
  | .stopping | .dropping .goodbye | .sending _ .goodbye | .waiting _ .goodbye
  | .signalling (.stop _) | .joining (.stop _) => true
  | _ => false

/-- The goodbye that `stop()` has sent to the worker, if it has. -/
def Pc.goodbye : Pc → Option Reply
  | .waiting r .goodbye => some r
  | .signalling (.stop g) | .joining (.stop g) => g
  | _ => none

/-- On the current connection the client has accepted the goodbye, which is the offline status, and
no online announcement after it. -/
def SaidGoodbye (set : Settings) (accepted : List Publication) (goodbye : Option Reply) : Prop :=
  ∃ r before after, goodbye = some r ∧
    accepted =
      before ++ ⟨some r, set.status, set.offline, .atLeastOnce, set.statusRetain⟩ :: after ∧
    ∀ p ∈ after, p.owner ≠ none

/-- The message is the offline status. -/
def System.IsGoodbye (set : Settings) (m : Message) : Prop :=
  m.topic = set.status ∧ m.payload = set.offline ∧ m.qos = .atLeastOnce ∧
    m.retain = set.statusRetain

/-- The goodbye that `stop()` is about to send, or has sent and the worker has not taken out of the
slot. -/
def System.Bears (s : System) (m : Message) : Prop :=
  s.pc = .sending m .goodbye ∨ s.slot = some m ∧ s.pc.goodbye = some m.reply

/-- The worker is still to take the goodbye out of the slot. -/
def System.goodbyeAhead (s : System) : Bool :=
  match s.pc with
  | .stopping | .sending _ .goodbye => true
  | pc => s.slot.any fun m => pc.goodbye == some m.reply

/-- `try_publish` refuses only when the channel is full or the topic is not valid. -/
def RefusesOnlyFull (validTopic : String → Prop) (s : System) : Act → Prop
  | .worker (.message m ok) => ok = false → validTopic m.topic →
      Client.channelSlots ≤ s.link.client.channel.length
  | _ => True

/-- What a run must meet for the goodbye to be heard. -/
def Heard (set : Settings) (s : System) : Act → Prop
  -- a goodbye that the worker has already taken, or that was never sent, does not count for a
  -- connection made after it
  | .worker (.connAck _ _) => s.pc.inStop = true → s.goodbyeAhead = true
  -- the slot is free when the goodbye is sent
  | .send => s.pc.inStop = true → s.connected = true → s.slot = none
  -- the goodbye has left the slot before the worker turns to the stop signal
  | .worker (.stop _) => s.connected = true → ∀ m ∈ s.slot, s.pc.goodbye ≠ some m.reply
  -- there is room for the goodbye when the worker takes it out of the slot
  | .worker (.message m _) => s.pc.goodbye = some m.reply → s.connected = true →
      s.link.loop.full set.capacity m.qos = false ∧
        s.link.client.channel.length < Client.channelSlots
  | _ => True

instance (validTopic : String → Prop) [DecidablePred validTopic] (s : System) :
    DecidablePred (RefusesOnlyFull validTopic s)
  | .worker (.message m ok) =>
    inferInstanceAs (Decidable (ok = false → validTopic m.topic → _ ≤ _))
  | .worker (.stop _) | .worker .take | .worker (.connAck _ _) | .worker (.published _)
  | .worker (.pubAck _) | .worker (.pubComp _) | .worker (.err _) | .worker .other | .worker .wake
  | .die _ | .advance _ | .publish _ _ _ _ | .goodbye | .countDrop | .send | .verdict _ | .timeout
  | .start | .maintain | .stop | .signal | .join | .spawn _ => isTrue trivial

instance (set : Settings) (s : System) : DecidablePred (Heard set s)
  | .worker (.connAck _ _) => inferInstanceAs (Decidable (_ = true → s.goodbyeAhead = true))
  | .send => inferInstanceAs (Decidable (_ = true → _ = true → s.slot = none))
  | .worker (.stop _) => inferInstanceAs (Decidable (_ = true → ∀ m ∈ s.slot, _ ≠ _))
  | .worker (.message m _) =>
    inferInstanceAs (Decidable (_ = some m.reply → _ = true → _ ∧ _ < _))
  | .worker .take | .worker (.published _) | .worker (.pubAck _) | .worker (.pubComp _)
  | .worker (.err _) | .worker .other | .worker .wake
  | .die _ | .advance _ | .publish _ _ _ _ | .goodbye | .countDrop | .verdict _ | .timeout
  | .start | .maintain | .stop | .signal | .join | .spawn _ => isTrue trivial

/-- The goodbye is in the slot, or the client has accepted it. -/
def OnItsWay (set : Settings) (s : System) (goodbye : Option Reply) : Prop :=
  (∃ m, s.slot = some m ∧ goodbye = some m.reply) ∨ SaidGoodbye set s.link.hist.accepted goodbye

/-- Where the goodbye has to be while the calling thread stands at a given point. -/
def GoodbyeAt (set : Settings) (s : System) : Pc → Prop
  | .dropping .goodbye => False
  | .waiting r .goodbye => OnItsWay set s (some r)
  | .signalling (.stop g) => OnItsWay set s g
  | .joining (.stop g) => OnItsWay set s g
  | _ => True

/-- A network thread that runs is one the calling thread holds or joins, unless that thread has
panicked. -/
def System.Handled (s : System) : Prop :=
  s.running = true → s.worker = true ∨ (∃ why, s.pc = .joining why) ∨ s.pc = .panicked

/-- While the network thread runs and has a connection, the goodbye is where it should be. -/
structure GoodbyeInv (set : Settings) (s : System) : Prop where
  handled : s.Handled
  goodbye : s.running = true → s.connected = true → GoodbyeAt set s s.pc

/-- Where the calling thread is not in `stop()`, or the goodbye is still ahead of the worker,
nothing has to be accepted yet. -/
theorem goodbyeAt_of_ahead {set : Settings} {s : System}
    (h : s.pc.inStop = true → s.goodbyeAhead = true) : GoodbyeAt set s s.pc := by
  have hslot : ∀ g, s.slot.any (fun m => g == some m.reply) = true → OnItsWay set s g := by
    intro g hg
    obtain ⟨m, hm, hgm⟩ := (Option.any_eq_true _ _).1 hg
    exact .inl ⟨m, hm, by simpa using hgm⟩
  rw [System.goodbyeAhead] at h
  generalize s.pc = pc at h ⊢
  cases pc with
  | dropping who => cases who with
    | report => trivial
    | goodbye => simpa [Pc.goodbye] using h rfl
  | waiting r who => cases who with
    | report => trivial
    | goodbye => exact hslot _ (h rfl)
  | signalling why => cases why with
    | start => trivial
    | stop g => exact hslot _ (h rfl)
  | joining why => cases why with
    | start => trivial
    | stop g => exact hslot _ (h rfl)
  | _ => trivial

theorem GoodbyeAt.keep {set : Settings} {s t : System} {pc : Pc}
    (hkeep : ∀ g, pc.goodbye = g → OnItsWay set s g → OnItsWay set t g) (h : GoodbyeAt set s pc) :
    GoodbyeAt set t pc := by
  cases pc with
  | waiting r who => cases who with
    | report => trivial
    | goodbye => exact hkeep _ rfl h
  | signalling why => cases why with
    | start => trivial
    | stop g => exact hkeep _ rfl h
  | joining why => cases why with
    | start => trivial
    | stop g => exact hkeep _ rfl h
  | dropping who => cases who <;> exact h
  | _ => trivial

/-! ## The goodbye is the offline status -/

/-- The goodbye that is on its way to the worker is the offline status. -/
def System.SaysOffline (set : Settings) (s : System) : Prop :=
  ∀ m, s.Bears m → System.IsGoodbye set m

section

variable {set : Settings} {s t : System}

/-- Outside `stop()`, and in it before the goodbye is made, there is none. -/
theorem System.saysOffline_of_none (hg : s.pc.goodbye = none)
    (hsend : ∀ m, s.pc ≠ .sending m .goodbye) : s.SaysOffline set := by
  rintro m (h | ⟨-, h⟩)
  · exact absurd h (hsend m)
  · rw [hg] at h
    cases h

/-- A step that makes no new goodbye. -/
theorem System.SaysOffline.keep (h : s.SaysOffline set) (hg : t.pc.goodbye = s.pc.goodbye)
    (hsend : ∀ m, t.pc = .sending m .goodbye → s.pc = .sending m .goodbye)
    (hslot : ∀ m, t.slot = some m → s.slot = some m) : t.SaysOffline set := by
  rintro m (hm | ⟨hm, hgm⟩)
  · exact h m (.inl (hsend m hm))
  · exact h m (.inr ⟨hslot m hm, hg ▸ hgm⟩)

theorem System.saysOffline_locked (ht : t.SaysOffline set) : (s.locked t).SaysOffline set :=
  locked_of (saysOffline_of_none rfl nofun) fun _ => ht

theorem System.saysOffline_publish {topic payload : String} {qos : QoS} {retain : Bool}
    {who : Caller} (hoffline : who = .goodbye → topic = set.status ∧ payload = set.offline ∧
      qos = .atLeastOnce ∧ retain = set.statusRetain) :
    (s.onPublish topic payload qos retain who).SaysOffline set := by
  rw [onPublish]
  split
  · refine saysOffline_locked ?_
    cases hconn : s.connected with
    | true =>
      rintro m (h | ⟨-, h⟩)
      · cases h
        exact hoffline rfl
      · cases h
    | false => exact saysOffline_of_none rfl (by simp)
  · exact saysOffline_of_none rfl (by simp)

theorem System.saysOffline_send (h : s.SaysOffline set) {m : Message} {who : Caller}
    (hpc : s.pc = .sending m who) : (s.onSend m who).SaysOffline set := by
  rw [onSend]
  split
  · rintro m' (h' | ⟨hslot, hg⟩)
    · cases h'
    · cases hslot
      cases who with
      | report => cases hg
      | goodbye => exact h m (.inl hpc)
  · cases who <;> exact saysOffline_of_none rfl fun _ hsend => by cases hsend

theorem System.saysOffline_step {a : Act} (h : s.SaysOffline set)
    (hs : s.step set a = some t) : t.SaysOffline set := by
  cases moved_of_step hs with
  | @worker i =>
    refine h.keep rfl (fun _ hm => hm) fun m hm => ?_
    cases i with
    | message => cases hm
    | _ => exact hm
  | die | advance => exact h.keep rfl (fun _ hm => hm) fun _ hm => hm
  | publish => exact saysOffline_publish nofun
  | goodbye => exact saysOffline_publish fun _ => ⟨rfl, rfl, rfl, rfl⟩
  | @countDrop who =>
    refine saysOffline_locked ?_
    split <;> cases who <;> exact saysOffline_of_none rfl nofun
  | send hpc => exact saysOffline_send h hpc
  | @verdict _ _ who hpc | @timeout _ who hpc =>
    cases who with
    | report => exact saysOffline_of_none rfl nofun
    | goodbye => exact h.keep (by rw [hpc]; rfl) nofun fun _ hm => hm
  | start | stopIdle => exact saysOffline_of_none rfl nofun
  | maintain =>
    refine saysOffline_locked ?_
    split
    · exact saysOffline_of_none rfl nofun
    · exact h
  | maintainOff => exact h
  | stop =>
    refine saysOffline_locked ?_
    cases hconn : s.connected <;> exact saysOffline_of_none rfl nofun
  | @signal why hpc =>
    cases why <;> exact h.keep (by rw [hpc]; rfl) nofun fun _ hm => hm
  | @tornDown why | @join why =>
    refine saysOffline_locked ?_
    cases why <;> exact saysOffline_of_none rfl nofun
  | spawn =>
    refine saysOffline_locked ?_
    split <;> exact saysOffline_of_none rfl nofun

end

/-! ## What the client has accepted -/

theorem SaidGoodbye.append {set : Settings} {accepted : List Publication} {g : Option Reply}
    (h : SaidGoodbye set accepted g) (m : Message) :
    SaidGoodbye set (accepted ++ [m.publication]) g := by
  obtain ⟨r, before, after, hg, hacc, hnone⟩ := h
  refine ⟨r, before, after ++ [m.publication], hg, by rw [hacc]; simp, fun p hp => ?_⟩
  rcases List.mem_append.1 hp with hp | hp
  · exact hnone p hp
  · rw [List.mem_singleton.1 hp]
    exact Option.some_ne_none m.reply

/-- The goodbye itself. -/
theorem saidGoodbye_of_accepted {set : Settings} {m : Message} (hm : System.IsGoodbye set m)
    (accepted : List Publication) :
    SaidGoodbye set (accepted ++ [m.publication]) (some m.reply) := by
  obtain ⟨htopic, hpayload, hqos, hretain⟩ := hm
  refine ⟨m.reply, accepted, [], rfl, ?_, fun _ hp => absurd hp List.not_mem_nil⟩
  rw [Message.publication, htopic, hpayload, hqos, hretain]

/-- A message adds at most itself to what the client has accepted, and does so if the worker has a
connection, there is room below the cap and `try_publish` takes it. -/
theorem Link.accepted_message {set : Settings} {l l' : Link} {m : Message} {ok : Bool}
    (hs : l.onMessage set m ok = some l') :
    (l'.hist.accepted = l.hist.accepted ∨
        l'.hist.accepted = l.hist.accepted ++ [m.publication]) ∧
      (l.shared.connected = true → l.loop.full set.capacity m.qos = false → ok = true →
        l'.hist.accepted = l.hist.accepted ++ [m.publication]) := by
  obtain ⟨-, ⟨hrefused, rfl⟩ | ⟨-, c, -, rfl⟩⟩ := onMessage_eq_some hs
  · refine ⟨.inl rfl, fun hconn hfull hok => ?_⟩
    simp [hconn, hfull, hok] at hrefused
  · exact ⟨.inr rfl, fun _ _ _ => rfl⟩

/-- Acknowledgements, announcements and waking up accept nothing. -/
theorem Link.accepted_other {set : Settings} {l l' : Link} {i : Input}
    (hs : l.step set i = some l') (hstop : ∀ d, i ≠ .stop d) (hmsg : ∀ m ok, i ≠ .message m ok)
    (hack : ∀ rs ok, i ≠ .connAck rs ok) (herr : ∀ now, i ≠ .err now) :
    l'.hist.accepted = l.hist.accepted := by
  have hs := (step_eq_some.1 hs).2
  cases i with
  | stop d => exact absurd rfl (hstop d)
  | message m ok => exact absurd rfl (hmsg m ok)
  | connAck rs ok => exact absurd rfl (hack rs ok)
  | err now => exact absurd rfl (herr now)
  | take =>
    obtain ⟨c, -, rfl⟩ := Option.map_eq_some_iff.1 hs
    rfl
  | published id =>
    obtain ⟨c, -, rfl⟩ := Option.map_eq_some_iff.1 hs
    rfl
  | pubAck id | pubComp id | other | wake => cases hs; rfl

/-- A `DISCONNECT` is only handed to the client of an established connection. -/
theorem Link.connected_of_disconnect {set : Settings} {l l' : Link}
    (hs : l.step set (.stop true) = some l') : l.shared.connected = true := by
  have hs := (step_eq_some.1 hs).2
  rw [next, onStop] at hs
  split at hs
  · rename_i hok
    have hdis := (hok rfl).1
    rw [disconnects, Bool.and_eq_true] at hdis
    exact hdis.2
  · cases hs

/-! ## The worker's steps -/

variable {set : Settings} {validTopic : String → Prop}

theorem onItsWay_worker {s : System} {l : Link} {i : Input} {g : Option Reply}
    (hvalid : validTopic set.status) (hoffline : s.SaysOffline set)
    (hl : s.link.step set i = some l) (hconn : s.connected = true)
    (hallow : s.admits i = true) (hrefuse : RefusesOnlyFull validTopic s (.worker i))
    (hheard : Heard set s (.worker i)) (hg : s.pc.goodbye = g)
    (hstop : ∀ d, i ≠ .stop d) (hack : ∀ rs ok, i ≠ .connAck rs ok) (herr : ∀ now, i ≠ .err now)
    (h : OnItsWay set s g) : OnItsWay set { s with link := l, slot := s.slotAfter i } g := by
  by_cases hmsg : ∃ m ok, i = .message m ok
  · obtain ⟨m, ok, rfl⟩ := hmsg
    have hslot : s.slot = some m := by simpa [System.admits] using hallow
    obtain ⟨hacc, hacc'⟩ := Link.accepted_message (Link.step_eq_some.1 hl).2
    right
    rcases h with ⟨m', hm', hgm⟩ | h
    · -- the worker takes the goodbye itself
      obtain rfl : m = m' := Option.some.inj (hslot.symm.trans hm')
      obtain ⟨hfull, hroom⟩ := hheard (hg.trans hgm) hconn
      have hstatus := hoffline m (.inr ⟨hslot, hg.trans hgm⟩)
      have hok : ok = true := by
        by_contra hno
        have := hrefuse (by simpa using hno) (hstatus.1 ▸ hvalid)
        omega
      show SaidGoodbye set l.hist.accepted g
      rw [hacc' hconn hfull hok, hgm]
      exact saidGoodbye_of_accepted hstatus s.link.hist.accepted
    · rcases hacc with hacc | hacc
      · show SaidGoodbye set l.hist.accepted g
        rwa [hacc]
      · show SaidGoodbye set l.hist.accepted g
        rw [hacc]
        exact h.append m
  · have hmsg' : ∀ m ok, i ≠ .message m ok := fun m ok h => hmsg ⟨m, ok, h⟩
    have hacc := Link.accepted_other hl hstop hmsg' hack herr
    have hslot : s.slotAfter i = s.slot := by
      cases i with
      | message m ok => exact absurd rfl (hmsg' m ok)
      | _ => rfl
    rw [OnItsWay] at h ⊢
    simpa only [hslot, hacc] using h

theorem goodbyeInv_worker {s : System} {i : Input} {l : Link} (hvalid : validTopic set.status)
    (hoffline : s.SaysOffline set) (h : GoodbyeInv set s)
    (hrefuse : RefusesOnlyFull validTopic s (.worker i))
    (hheard : Heard set s (.worker i)) (hallow : s.admits i = true)
    (hl : s.link.step set i = some l) :
    GoodbyeInv set { s with link := l, slot := s.slotAfter i } := by
  obtain ⟨hshared, -⟩ := Link.shared_phase_step hl
  have hrun : s.running = true := System.running_of_step hl
  refine ⟨fun _ => h.handled hrun, fun _ hconn => ?_⟩
  have hconn' : (Link.sharedAfter s.link.shared i).connected = true := hshared ▸ hconn
  by_cases hack : ∃ rs ok, i = .connAck rs ok
  · -- a new connection finds the goodbye still ahead
    obtain ⟨rs, ok, rfl⟩ := hack
    exact goodbyeAt_of_ahead (s := { s with link := l, slot := s.slot }) hheard
  · have hack' : ∀ rs ok, i ≠ .connAck rs ok := fun rs ok h => hack ⟨rs, ok, h⟩
    have hstop : ∀ d, i ≠ .stop d := by
      rintro d rfl
      cases hconn'
    have herr : ∀ now, i ≠ .err now := by
      rintro now rfl
      rw [Link.sharedAfter, State.onErr] at hconn'
      split at hconn'
      · cases hconn'
      · rename_i hno
        exact hno hconn'
    have hconn₀ : s.connected = true := by
      cases i with
      | stop d => exact absurd rfl (hstop d)
      | connAck rs ok => exact absurd rfl (hack' rs ok)
      | err now => exact absurd rfl (herr now)
      | _ => exact hconn'
    exact (h.goodbye hrun hconn₀).keep fun g hg =>
      onItsWay_worker hvalid hoffline hl hconn₀ hallow hrefuse hheard hg hstop hack' herr

/-! ## The calling thread's steps -/

theorem goodbyeInv_locked {s t : System} (ht : GoodbyeInv set t) :
    GoodbyeInv set (s.locked t) :=
  System.locked_of ⟨fun _ => .inr (.inr rfl), fun _ _ => trivial⟩ fun _ => ht

theorem System.Handled.worker {s : System} (h : s.Handled) (hrun : s.running = true) {pc : Pc}
    (hpc : s.pc = pc) (hjoin : ∀ why, pc ≠ .joining why) (hpan : pc ≠ .panicked) :
    s.worker = true := by
  rcases h hrun with h | ⟨why, h⟩ | h
  · exact h
  · exact absurd (hpc.symm.trans h) (hjoin why)
  · exact absurd (hpc.symm.trans h) hpan

/-- A step of a calling thread that neither joins nor has panicked, and that keeps its worker. -/
theorem goodbyeInv_move {s t : System} (h : GoodbyeInv set s) {pc : Pc} (hpc : s.pc = pc)
    (hjoin : ∀ why, pc ≠ .joining why) (hpan : pc ≠ .panicked)
    (hloop : t.link.loop = s.link.loop) (hworker : t.worker = s.worker)
    (hat : t.running = true → t.connected = true → GoodbyeAt set t t.pc) : GoodbyeInv set t := by
  refine ⟨fun hrun => .inl ?_, hat⟩
  rw [System.running, hloop] at hrun
  exact hworker.trans (h.handled.worker hrun hpc hjoin hpan)

/-- Without a running thread, or without a connection, there is nothing to show. -/
theorem goodbyeInv_tornDown {s : System} (why : Why) (hstill : s.running = false) :
    GoodbyeInv set (s.onTornDown why) := by
  refine goodbyeInv_locked ⟨fun hrun => ?_, fun _ hconn => by cases hconn⟩
  rw [show s.running = true from hrun] at hstill
  cases hstill

theorem goodbyeInv_publish {s : System} (h : GoodbyeInv set s) {topic payload : String} {qos : QoS}
    {retain : Bool} {who : Caller} {pc : Pc} (hpc : s.pc = pc) (hjoin : ∀ why, pc ≠ .joining why)
    (hpan : pc ≠ .panicked) :
    GoodbyeInv set (s.onPublish topic payload qos retain who) := by
  rw [System.onPublish]
  split
  · refine goodbyeInv_locked (goodbyeInv_move h hpc hjoin hpan rfl rfl fun _ hconn => ?_)
    have hconn : s.connected = true := hconn
    show GoodbyeAt set _ (if s.connected then _ else _)
    rw [if_pos hconn]
    trivial
  · rename_i hworker
    refine goodbyeInv_move h hpc hjoin hpan rfl rfl fun hrun _ => ?_
    exact absurd (h.handled.worker hrun hpc hjoin hpan) hworker

theorem goodbyeInv_drop {s : System} (h : GoodbyeInv set s) {who : Caller}
    (hpc : s.pc = .dropping who) : GoodbyeInv set (s.onDrop who) := by
  have hat : s.running = true → s.connected = true → who = .report := fun hrun hconn => by
    have := h.goodbye hrun hconn
    rw [hpc] at this
    cases who with
    | report => rfl
    | goodbye => exact this.elim
  refine goodbyeInv_locked ?_
  split <;>
    refine goodbyeInv_move h hpc nofun nofun rfl rfl fun hrun hconn => ?_ <;>
    obtain rfl := hat hrun hconn <;>
    trivial

theorem goodbyeInv_send {s : System} (h : GoodbyeInv set s) {m : Message} {who : Caller}
    (hpc : s.pc = .sending m who) (hheard : Heard set s .send) : GoodbyeInv set (s.onSend m who) := by
  rw [System.onSend]
  split
  · refine goodbyeInv_move h hpc (by simp) (by simp) rfl rfl fun _ _ => ?_
    cases who with
    | report => trivial
    | goodbye => exact .inl ⟨m, rfl, rfl⟩
  · rename_i hfull
    refine goodbyeInv_move h hpc (by simp) (by simp) rfl rfl fun hrun hconn => ?_
    cases who with
    | report => trivial
    | goodbye =>
      have hslot : s.slot = none := hheard (by rw [hpc]; rfl) hconn
      exact absurd ⟨hslot, hrun⟩ hfull

/-- A wait that ends returns to the program, or to `stop()` with the goodbye on its way. -/
theorem goodbyeInv_return {s : System} (h : GoodbyeInv set s) {r : Reply} {who : Caller}
    (hpc : s.pc = .waiting r who) :
    GoodbyeInv set { s with pc := System.Caller.return (some r) who } := by
  refine goodbyeInv_move h hpc nofun nofun rfl rfl fun hrun hconn => ?_
  have hat := h.goodbye hrun hconn
  rw [hpc] at hat
  cases who with
  | report => trivial
  | goodbye => exact hat

theorem goodbyeInv_step {s t : System} {a : Act} (hvalid : validTopic set.status)
    (hoffline : s.SaysOffline set) (h : GoodbyeInv set s) (hrefuse : RefusesOnlyFull validTopic s a)
    (hheard : Heard set s a)
    (hs : s.step set a = some t) : GoodbyeInv set t := by
  cases System.moved_of_step hs with
  | worker hallow hl => exact goodbyeInv_worker hvalid hoffline h hrefuse hheard hallow hl
  | die => exact ⟨nofun, nofun⟩
  | advance =>
    exact ⟨h.handled, fun hrun hconn => (h.goodbye hrun hconn).keep fun _ _ hway => hway⟩
  | publish hpc | goodbye hpc => exact goodbyeInv_publish h hpc nofun nofun
  | countDrop hpc => exact goodbyeInv_drop h hpc
  | send hpc => exact goodbyeInv_send h hpc hheard
  | verdict hpc | timeout hpc => exact goodbyeInv_return h hpc
  | start hpc => exact goodbyeInv_move h hpc nofun nofun rfl rfl fun _ _ => trivial
  | maintain hpc =>
    refine goodbyeInv_locked ?_
    split
    · exact goodbyeInv_move h hpc nofun nofun rfl rfl fun _ _ => trivial
    · exact h
  | maintainOff => exact h
  | stop hpc =>
    refine goodbyeInv_locked (goodbyeInv_move h hpc nofun nofun rfl rfl fun _ hconn => ?_)
    have hconn : s.connected = true := hconn
    show GoodbyeAt set _ (if s.connected then _ else _)
    rw [if_pos hconn]
    trivial
  | stopIdle hpc hworker =>
    refine goodbyeInv_move h hpc nofun nofun rfl rfl fun hrun _ => ?_
    exact absurd (h.handled.worker hrun hpc nofun nofun) (by simp [hworker])
  | @signal why hpc =>
    refine ⟨fun _ => .inr (.inl ⟨why, rfl⟩), fun hrun hconn => ?_⟩
    have hat := h.goodbye hrun hconn
    rw [hpc] at hat
    cases why with
    | start => trivial
    | stop g => exact hat
  | @tornDown why hpc hworker =>
    refine goodbyeInv_tornDown why ?_
    by_contra hrun
    exact absurd (h.handled.worker (by simpa using hrun) hpc nofun nofun) (by simp [hworker])
  | @join why _ hstill => exact goodbyeInv_tornDown why hstill
  | spawn hpc =>
    refine goodbyeInv_locked ?_
    split
    · exact ⟨fun _ => .inl rfl, fun _ hconn => by cases hconn⟩
    · exact goodbyeInv_move h hpc nofun nofun rfl rfl fun _ _ => trivial

/-! ## The goodbye is heard -/

theorem goodbyeInv_init (set : Settings) (now : Duration) :
    GoodbyeInv set (System.init set now) := by
  have hstill : (System.init set now).running = false := rfl
  refine ⟨fun hrun => ?_, fun hrun => ?_⟩ <;>
    rw [hstill] at hrun <;>
    cases hrun

/-- **The goodbye is accepted before the `DISCONNECT`.**  In every run whose steps meet `Heard`,
whenever the worker takes `stop()`'s signal and hands a `DISCONNECT` to the client on a live
connection, the client has accepted the offline status on that connection, after the last online
announcement. -/
theorem goodbye_before_disconnect (set : Settings) (validTopic : String → Prop)
    (hvalid : validTopic set.status) (now : Duration) (s t : System)
    (h : Reach (System.step set) (fun s a => RefusesOnlyFull validTopic s a ∧ Heard set s a)
      (System.init set now) s)
    (hheard : Heard set s (.worker (.stop true)))
    (hs : s.step set (.worker (.stop true)) = some t) (g : Option Reply)
    (hpc : s.pc = .joining (.stop g)) : SaidGoodbye set s.link.hist.accepted g := by
  have hinv : GoodbyeInv set s :=
    h.along (J := System.SaysOffline set)
      (fun _ hr => hr.invariant (System.saysOffline_of_none rfl fun _ hpc => by cases hpc)
        fun _ _ _ ht _ hs => System.saysOffline_step ht hs)
      (goodbyeInv_init set now)
      fun _ _ _ ht hi hc hs => goodbyeInv_step hvalid ht hi hc.1 hc.2 hs
  cases System.moved_of_step hs with
  | worker _ hl =>
    have hrun := System.running_of_step hl
    have hconn := Link.connected_of_disconnect hl
    have hat := hinv.goodbye hrun hconn
    rw [hpc] at hat
    rcases hat with ⟨m, hm, hg⟩ | hsaid
    · exact absurd (by rw [hpc]; exact hg) (hheard hconn m hm)
    · exact hsaid

/-- Start, connect, announce, and stop; the worker takes the goodbye out of the slot. -/
def goodbyeRun (verdict : Bool) (acks : List Input) : List Act :=
  [.start, .signal, .spawn .ok, .worker (.connAck [] true), .stop, .goodbye, .send,
      .worker (.message ⟨"/host/oper_state/status", "offline", .atLeastOnce, true, 0⟩ true)] ++
    acks.map .worker ++ [.verdict verdict, .signal]

theorem goodbye_before_disconnect_acknowledged :
    ∃ s, (System.step .defaults s (.worker (.stop true))).isSome ∧
      SaidGoodbye .defaults s.link.hist.accepted (some 0) := by
  have hrun : (execWhile (System.step .defaults)
      (fun s a => RefusesOnlyFull (fun _ => True) s a ∧ Heard .defaults s a)
      (.init .defaults .zero) (goodbyeRun true [.take, .take, .published 1, .published 2,
        .pubAck 1, .pubAck 2])).isSome := by decide
  have hstop : (System.step .defaults (Option.get _ hrun) (.worker (.stop true))).isSome := by
    decide +revert
  exact ⟨_, hstop, goodbye_before_disconnect .defaults (fun _ => True) trivial .zero _ _
    (Reach.of_isSome hrun) (by decide +revert) (Option.some_get hstop).symm _ rfl⟩

/-- With room for one publication, the online announcement that is not acknowledged yet takes the
goodbye's place, and the `DISCONNECT` goes out without it. -/
theorem refusedGoodbye_silent : ¬ ∀ (set : Settings) (validTopic : String → Prop)
    (now : Duration) (s t : System), validTopic set.status →
    Reach (System.step set) (RefusesOnlyFull validTopic) (System.init set now) s →
    s.step set (.worker (.stop true)) = some t →
    ∀ g, s.pc = .joining (.stop g) → SaidGoodbye set s.link.hist.accepted g := by
  intro hall
  have hrun : (execWhile (System.step { Settings.defaults with capacity := 1 })
      (RefusesOnlyFull fun _ => True) (.init { Settings.defaults with capacity := 1 } .zero)
      (goodbyeRun false [])).isSome := by decide
  have hstop : (System.step { Settings.defaults with capacity := 1 } (Option.get _ hrun)
      (.worker (.stop true))).isSome := by decide +revert
  obtain ⟨r, before, after, -, hacc, -⟩ := hall _ (fun _ => True) .zero _ _ trivial
    (Reach.of_isSome hrun) (Option.some_get hstop).symm _ rfl
  have howner : [none] = (before ++ ⟨some r, _, _, _, _⟩ :: after).map Publication.owner :=
    congrArg (List.map Publication.owner) hacc
  rw [List.map_append, List.map_cons] at howner
  have hmem : some r ∈ [(none : Option Reply)] := by
    rw [howner]
    exact List.mem_append_right _ List.mem_cons_self
  cases List.mem_singleton.1 hmem

end Mqtt
end SystemReport
