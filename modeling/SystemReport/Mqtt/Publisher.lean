import SystemReport.Mqtt.Link

/-!
# The publisher and its network thread

`Publisher` in `src/mqttclient.rs`, as the thread that calls its methods runs it, next to the
network thread of `Link`.  A method is cut where another thread can act in between: each lock
section, each channel operation and each wait is a step of its own, and `Pc` says which one comes
next.  `maintain()` reads its guards in one step.

Whether building the runtime or spawning the thread works, how long a wait lasts, when time
passes and when the network thread dies is up to the environment.
-/

set_option autoImplicit false

open Machine

namespace SystemReport
namespace Mqtt

/-- Who called `publish()`: the program, or `stop()` for its goodbye. -/
inductive Caller
  | report
  | goodbye
deriving DecidableEq, Repr

/-- Why the worker is torn down: by `start()` (also from `maintain()`), or by `stop()`, which may
have sent its goodbye before. -/
inductive Why
  | start
  | stop (goodbye : Option Reply)
deriving DecidableEq, Repr

/-- What the calling thread does next. -/
inductive Pc
  /-- no method is running -/
  | idle
  /-- `stop()` found the flag set and calls `publish()` -/
  | stopping
  /-- `publish()` found no connection and is about to count the drop -/
  | dropping (who : Caller)
  /-- `publish()` is about to `try_send` -/
  | sending (m : Message) (who : Caller)
  /-- `publish()` waits for a verdict -/
  | waiting (r : Reply) (who : Caller)
  /-- `teardown()` is about to send the stop signal -/
  | signalling (why : Why)
  /-- `teardown()` joins the thread -/
  | joining (why : Why)
  /-- `start()` is about to build a runtime and spawn a thread -/
  | spawning
  /-- an `unwrap()` of a poisoned lock -/
  | panicked
deriving DecidableEq, Repr

/-- What the environment makes of building the runtime and spawning the thread. -/
inductive Spawn
  | ok
  | noRuntime
  | noThread
deriving DecidableEq, Repr

/-- The two threads.  `worker` says that `Publisher.worker` is `Some`; `slot` and `stopSent` are the
one-slot channel and the stop signal of that worker.  `lastStart` is the outcome of the latest
`start()`, and `dropLog` the warnings about dropped messages. -/
structure System where
  now : Duration
  link : Link
  poisoned : Bool
  pc : Pc
  worker : Bool
  slot : Option Message
  stopSent : Bool
  calls : ℕ
  lastStart : Option Bool
  dropLog : List (Duration × UInt64)
deriving DecidableEq

/-- One step of either thread. -/
inductive Act
  /-- a step of the network thread -/
  | worker (i : Input)
  /-- the network thread ends without running the code after its loop; the flag says that this
  happens in `clock()`, while the `Err` branch holds the lock -/
  | die (inClock : Bool)
  /-- time passes -/
  | advance (now : Duration)
  /-- `publish()` is called and looks for a connection -/
  | publish (topic payload : String) (qos : Option QoS) (retain : Option Bool)
  /-- `stop()` calls `publish()`, which looks for a connection -/
  | goodbye
  /-- a drop is counted -/
  | countDrop
  /-- `try_send` -/
  | send
  /-- the verdict arrives -/
  | verdict (b : Bool)
  /-- the wait ends without a verdict -/
  | timeout
  | start
  | maintain
  | stop
  /-- `teardown()` takes the worker and sends the stop signal, if there is one -/
  | signal
  /-- the thread is joined -/
  | join
  /-- the rest of `start()` -/
  | spawn (outcome : Spawn)
deriving DecidableEq

namespace System

/-- `Publisher::with_clock`. -/
def init (set : Settings) (now : Duration) : System where
  now := now
  link := { Link.init set now with loop := (Loop.start set).stopped }
  poisoned := false
  pc := .idle
  worker := false
  slot := none
  stopSent := false
  calls := 0
  lastStart := none
  dropLog := []

/-- `Publisher::connected`. -/
def connected (s : System) : Bool := s.link.shared.connected

/-- `Publisher::dropped`. -/
def dropped (s : System) : UInt64 := s.link.shared.dropped

/-- `Publisher::disconnected_for`. -/
def disconnectedFor (s : System) : Duration :=
  if s.connected then .zero else s.now.saturatingSub s.link.shared.since

/-- The network thread runs. -/
def running (s : System) : Bool := s.link.loop.phase != .finished

/-- The guards of `maintain()`: none of them returns `Ok(false)`. -/
def wantsRebuild (set : Settings) (s : System) : Bool :=
  set.cleanSession && !set.recreate.isZero && !s.connected && s.worker &&
    decide (set.recreate ≤ s.disconnectedFor)

/-- A lock section: it panics if the lock is poisoned. -/
def locked (s : System) (next : System) : System :=
  if s.poisoned then { s with pc := .panicked } else next

/-- Where `publish()` returns to; `g` is the goodbye it has sent, if any. -/
def Caller.return (g : Option Reply) : Caller → Pc
  | .report => .idle
  | .goodbye => .signalling (.stop g)

/-- Where `teardown()` returns to. -/
def Why.return : Why → Pc
  | .start => .spawning
  | .stop _ => .idle

/-- `publish()` up to its message: it looks for a connection. -/
def onPublish (s : System) (topic payload : String) (qos : QoS) (retain : Bool) (who : Caller) :
    System :=
  if s.worker then
    s.locked
      { s with
        calls := s.calls + 1
        pc := if s.connected then .sending ⟨topic, payload, qos, retain, s.calls⟩ who
          else .dropping who }
  else { s with calls := s.calls + 1, pc := .dropping who }

/-- The seconds between two warnings about dropped messages. -/
def dropLogSecs : UInt64 := 300

/-- The lock section that counts a dropped message. -/
def onDrop (s : System) (who : Caller) : System :=
  let dropped := if s.dropped.toNat + 1 < UInt64.size then s.dropped + 1 else s.dropped
  let counted : System :=
    { s with
      pc := Caller.return none who
      link := { s.link with shared := { s.link.shared with dropped := dropped } } }
  s.locked <|
    if s.link.shared.lastLog.all fun last =>
        decide (Duration.fromSecs dropLogSecs ≤ s.now.saturatingSub last) then
      { counted with
        link := { counted.link with shared := { counted.link.shared with lastLog := some s.now } }
        dropLog := s.dropLog ++ [(s.now, dropped)] }
    else counted

/-- `try_send`: the slot is free and the receiver alive, or the call returns `false`. -/
def onSend (s : System) (m : Message) (who : Caller) : System :=
  if s.slot = none ∧ s.running then { s with slot := some m, pc := .waiting m.reply who }
  else { s with pc := Caller.return none who }

/-- The end of `teardown()`. -/
def onTornDown (s : System) (why : Why) : System :=
  s.locked
    { s with
      pc := Why.return why
      link := { s.link with shared := s.link.shared.onExit } }

/-- `start()` after its `teardown()`. -/
def onSpawn (set : Settings) (s : System) (outcome : Spawn) : System :=
  let shared : State := { s.link.shared with connected := false, since := s.now }
  s.locked <|
    if outcome = .ok then
      { s with
        pc := .idle
        worker := true
        slot := none
        stopSent := false
        lastStart := some true
        link := { s.link with shared := shared, loop := .start set, client := .fresh } }
    else
      { s with pc := .idle, lastStart := some false, link := { s.link with shared := shared } }

/-- The network thread is gone; what it had written to the shared state stays. -/
def onDie (s : System) (inClock : Bool) : System :=
  let shared := if inClock then s.link.shared.onExit else s.link.shared
  { s with
    poisoned := s.poisoned || inClock
    link :=
      { shared := shared
        loop := s.link.loop.stopped
        client := .fresh
        hist :=
          { s.link.hist with
            abandoned := s.link.loop.waiting ++ s.link.hist.abandoned
            accepted := [] } } }

/-- What a step of the network thread needs of the calling thread: a stop signal, a message in the
slot, or the time on the clock. -/
def admits (s : System) : Input → Bool
  | .stop _ => s.stopSent
  | .message m _ => s.slot == some m
  | .err now => now == s.now
  | _ => true

/-- The slot after a step of the network thread. -/
def slotAfter (s : System) : Input → Option Message
  | .message _ _ => none
  | _ => s.slot

/-- One step of either thread. -/
def step (set : Settings) (s : System) : Act → Option System
  | .worker i =>
    if s.admits i then
      (s.link.step set i).map fun l => { s with link := l, slot := s.slotAfter i }
    else none
  | .die inClock =>
    if s.running ∧ (inClock → s.link.loop.phase = .select ∧ s.connected) then
      some (s.onDie inClock)
    else none
  | .advance now => if s.now ≤ now then some { s with now := now } else none
  | .publish topic payload qos retain =>
    if s.pc = .idle then
      some (s.onPublish topic payload (qos.getD set.qos) (retain.getD set.retain) .report)
    else none
  | .goodbye =>
    if s.pc = .stopping then
      some (s.onPublish set.status set.offline .atLeastOnce set.statusRetain .goodbye)
    else none
  | .countDrop =>
    match s.pc with
    | .dropping who => some (s.onDrop who)
    | _ => none
  | .send =>
    match s.pc with
    | .sending m who => some (s.onSend m who)
    | _ => none
  | .verdict b =>
    match s.pc with
    | .waiting r who =>
      if (r, b) ∈ s.link.hist.verdicts then some { s with pc := Caller.return (some r) who }
      else none
    | _ => none
  | .timeout =>
    match s.pc with
    | .waiting r who => some { s with pc := Caller.return (some r) who }
    | _ => none
  | .start => if s.pc = .idle then some { s with pc := .signalling .start } else none
  | .maintain =>
    if s.pc = .idle then
      if set.cleanSession && !set.recreate.isZero then
        some (s.locked (if s.wantsRebuild set then { s with pc := .signalling .start } else s))
      else some s
    else none
  | .stop =>
    if s.pc = .idle then
      if s.worker then
        some (s.locked
          { s with pc := if s.connected then .stopping else .signalling (.stop none) })
      else some { s with pc := .signalling (.stop none) }
    else none
  | .signal =>
    match s.pc with
    | .signalling why =>
      if s.worker then
        some { s with worker := false, stopSent := true, pc := .joining why }
      else some (s.onTornDown why)
    | _ => none
  | .join =>
    match s.pc with
    | .joining why => if s.running then none else some (s.onTornDown why)
    | _ => none
  | .spawn outcome => if s.pc = .spawning then some (s.onSpawn set outcome) else none

/-! ## What a step can do -/

/-- The steps of either thread, each with its guards and what it leads to. -/
inductive Moved (set : Settings) (s : System) : Act → System → Prop
  | worker {i : Input} {l : Link} (hallow : s.admits i = true) (hl : s.link.step set i = some l) :
      Moved set s (.worker i) { s with link := l, slot := s.slotAfter i }
  | die {inClock : Bool} (hrun : s.running = true)
      (hclock : inClock = true → s.link.loop.phase = .select ∧ s.connected = true) :
      Moved set s (.die inClock) (s.onDie inClock)
  | advance {now : Duration} (hle : s.now ≤ now) : Moved set s (.advance now) { s with now := now }
  | publish {topic payload : String} {qos : Option QoS} {retain : Option Bool} (hpc : s.pc = .idle) :
      Moved set s (.publish topic payload qos retain)
        (s.onPublish topic payload (qos.getD set.qos) (retain.getD set.retain) .report)
  | goodbye (hpc : s.pc = .stopping) :
      Moved set s .goodbye
        (s.onPublish set.status set.offline .atLeastOnce set.statusRetain .goodbye)
  | countDrop {who : Caller} (hpc : s.pc = .dropping who) : Moved set s .countDrop (s.onDrop who)
  | send {m : Message} {who : Caller} (hpc : s.pc = .sending m who) :
      Moved set s .send (s.onSend m who)
  | verdict {r : Reply} {b : Bool} {who : Caller} (hpc : s.pc = .waiting r who)
      (htold : (r, b) ∈ s.link.hist.verdicts) :
      Moved set s (.verdict b) { s with pc := Caller.return (some r) who }
  | timeout {r : Reply} {who : Caller} (hpc : s.pc = .waiting r who) :
      Moved set s .timeout { s with pc := Caller.return (some r) who }
  | start (hpc : s.pc = .idle) : Moved set s .start { s with pc := .signalling .start }
  | maintain (hpc : s.pc = .idle) (hon : (set.cleanSession && !set.recreate.isZero) = true) :
      Moved set s .maintain
        (s.locked (if s.wantsRebuild set then { s with pc := .signalling .start } else s))
  | maintainOff (hpc : s.pc = .idle) (hoff : (set.cleanSession && !set.recreate.isZero) = false) :
      Moved set s .maintain s
  | stop (hpc : s.pc = .idle) (hworker : s.worker = true) :
      Moved set s .stop
        (s.locked { s with pc := if s.connected then .stopping else .signalling (.stop none) })
  | stopIdle (hpc : s.pc = .idle) (hworker : s.worker = false) :
      Moved set s .stop { s with pc := .signalling (.stop none) }
  | signal {why : Why} (hpc : s.pc = .signalling why) (hworker : s.worker = true) :
      Moved set s .signal { s with worker := false, stopSent := true, pc := .joining why }
  | tornDown {why : Why} (hpc : s.pc = .signalling why) (hworker : s.worker = false) :
      Moved set s .signal (s.onTornDown why)
  | join {why : Why} (hpc : s.pc = .joining why) (hstill : s.running = false) :
      Moved set s .join (s.onTornDown why)
  | spawn {outcome : Spawn} (hpc : s.pc = .spawning) :
      Moved set s (.spawn outcome) (s.onSpawn set outcome)

/-- **Every step is one of these.** -/
theorem moved_of_step {set : Settings} {s t : System} {a : Act} (hs : s.step set a = some t) :
    Moved set s a t := by
  cases a with
  | worker i =>
    rw [step] at hs
    split at hs
    · obtain ⟨l, hl, rfl⟩ := Option.map_eq_some_iff.1 hs
      exact .worker (by assumption) hl
    · cases hs
  | die inClock =>
    obtain ⟨⟨hrun, hclock⟩, hs⟩ := Option.ite_none_right_eq_some.1 hs
    cases hs
    exact .die hrun hclock
  | advance now =>
    obtain ⟨hle, hs⟩ := Option.ite_none_right_eq_some.1 hs
    cases hs
    exact .advance hle
  | publish topic payload qos retain =>
    obtain ⟨hpc, hs⟩ := Option.ite_none_right_eq_some.1 hs
    cases hs
    exact .publish hpc
  | goodbye =>
    obtain ⟨hpc, hs⟩ := Option.ite_none_right_eq_some.1 hs
    cases hs
    exact .goodbye hpc
  | start =>
    obtain ⟨hpc, hs⟩ := Option.ite_none_right_eq_some.1 hs
    cases hs
    exact .start hpc
  | spawn outcome =>
    obtain ⟨hpc, hs⟩ := Option.ite_none_right_eq_some.1 hs
    cases hs
    exact .spawn hpc
  | countDrop =>
    rw [step] at hs
    split at hs
    · cases hs
      exact .countDrop (by assumption)
    · cases hs
  | send =>
    rw [step] at hs
    split at hs
    · cases hs
      exact .send (by assumption)
    · cases hs
  | verdict b =>
    rw [step] at hs
    split at hs
    · obtain ⟨htold, hs⟩ := Option.ite_none_right_eq_some.1 hs
      cases hs
      exact .verdict (by assumption) htold
    · cases hs
  | timeout =>
    rw [step] at hs
    split at hs
    · cases hs
      exact .timeout (by assumption)
    · cases hs
  | maintain =>
    obtain ⟨hpc, hs⟩ := Option.ite_none_right_eq_some.1 hs
    split at hs
    · cases hs
      exact .maintain hpc (by assumption)
    · rename_i hoff
      cases hs
      exact .maintainOff hpc (by simpa using hoff)
  | stop =>
    obtain ⟨hpc, hs⟩ := Option.ite_none_right_eq_some.1 hs
    split at hs
    · cases hs
      exact .stop hpc (by assumption)
    · rename_i hworker
      cases hs
      exact .stopIdle hpc (by simpa using hworker)
  | signal =>
    rw [step] at hs
    split at hs
    · split at hs
      · cases hs
        exact .signal (by assumption) (by assumption)
      · rename_i hworker
        cases hs
        exact .tornDown (by assumption) (by simpa using hworker)
    · cases hs
  | join =>
    rw [step] at hs
    split at hs
    · split at hs
      · cases hs
      · rename_i hrun
        cases hs
        exact .join (by assumption) (by simpa using hrun)
    · cases hs

/-- A lock section either panics or does what it is to do. -/
theorem locked_of {P : System → Prop} {s t : System} (hpanic : P { s with pc := .panicked })
    (hnext : s.poisoned = false → P t) : P (s.locked t) := by
  rw [locked]
  split
  · exact hpanic
  · rename_i hp
    exact hnext (by simpa using hp)

theorem locked_of_sound {s : System} (h : s.poisoned = false) (t : System) : s.locked t = t := by
  rw [locked, h]
  rfl

theorem locked_of_poisoned {s : System} (h : s.poisoned = true) (t : System) :
    s.locked t = { s with pc := .panicked } := by
  rw [locked, if_pos h]

/-- Where `publish()` stands when it has looked for a connection. -/
theorem pc_onPublish (s : System) (topic payload : String) (qos : QoS) (retain : Bool)
    (who : Caller) :
    (s.onPublish topic payload qos retain who).pc =
        .sending ⟨topic, payload, qos, retain, s.calls⟩ who ∨
      (s.onPublish topic payload qos retain who).pc = .dropping who ∨
      (s.onPublish topic payload qos retain who).pc = .panicked := by
  rw [onPublish]
  split
  · rw [locked]
    split
    · exact .inr (.inr rfl)
    · cases s.connected with
      | false => exact .inr (.inl rfl)
      | true => exact .inl rfl
  · exact .inr (.inl rfl)

theorem now_le_locked {s t : System} (h : s.now ≤ t.now) : s.now ≤ (s.locked t).now :=
  locked_of (P := fun t => s.now ≤ t.now) le_rfl fun _ => h

/-- The clock does not go back. -/
theorem now_le_of_step {set : Settings} {s t : System} {a : Act} (hs : s.step set a = some t) :
    s.now ≤ t.now := by
  cases moved_of_step hs with
  | advance hle => exact hle
  | publish | goodbye =>
    rw [onPublish]
    split
    · exact now_le_locked le_rfl
    · exact le_rfl
  | send =>
    rw [onSend]
    split <;> exact le_rfl
  | countDrop | spawn | maintain =>
    refine now_le_locked ?_
    split <;> exact le_rfl
  | stop | tornDown | join => exact now_le_locked le_rfl
  | worker | die | verdict | timeout | start | maintainOff | stopIdle | signal => exact le_rfl

/-- A network thread that takes a step runs. -/
theorem running_of_step {set : Settings} {s : System} {i : Input} {l : Link}
    (hl : s.link.step set i = some l) : s.running = true := by
  rw [running, bne_iff_ne]
  intro hfin
  rw [Link.step_of_finished hfin] at hl
  cases hl

/-! ## The worker that is held -/

/-- Outside of a join, no connection is shown and no thread runs without a worker that is held. -/
structure Held (s : System) : Prop where
  gone : (∀ why, s.pc ≠ .joining why) → s.pc ≠ .panicked → s.worker = false →
    s.connected = false ∧ s.running = false
  stopping : s.pc = .stopping → s.worker = true
  /-- the earlier thread is gone -/
  spawning : s.pc = .spawning → s.running = false

theorem held_init (set : Settings) (now : Duration) : (init set now).Held :=
  ⟨fun _ _ _ => ⟨rfl, rfl⟩, nofun, nofun⟩

theorem held_panicked {s : System} : ({ s with pc := .panicked } : System).Held :=
  ⟨fun _ h => absurd rfl h, nofun, nofun⟩

theorem held_locked {s t : System} (ht : t.Held) : (s.locked t).Held :=
  locked_of (P := System.Held) held_panicked fun _ => ht

/-- Moving on within a call. -/
theorem Held.keep {s t : System} (h : s.Held) (hjoin : ∀ why, s.pc ≠ .joining why)
    (hpanic : s.pc ≠ .panicked) (hstopping : t.pc = .stopping → t.worker = true)
    (hspawning : t.pc ≠ .spawning)
    (hworker : t.worker = s.worker) (hconn : t.link.shared.connected = s.link.shared.connected)
    (hloop : t.link.loop = s.link.loop) : t.Held := by
  refine ⟨fun _ _ hnone => ?_, hstopping, fun hpc => absurd hpc hspawning⟩
  rw [hworker] at hnone
  rw [connected, running, hconn, hloop]
  exact h.gone hjoin hpanic hnone

/-- The end of a teardown: the thread is gone. -/
theorem held_tornDown {s : System} (why : Why) (hstill : s.running = false) :
    (s.onTornDown why).Held := by
  rw [onTornDown]
  refine held_locked ⟨fun _ _ _ => ⟨rfl, hstill⟩, fun hpc => ?_, fun _ => hstill⟩
  cases why <;> cases hpc

theorem Caller.return_ne (g : Option Reply) (who : Caller) :
    Caller.return g who ≠ .stopping ∧ Caller.return g who ≠ .spawning := by
  cases who <;> exact ⟨nofun, nofun⟩

theorem held_publish {s : System} (h : s.Held) (hjoin : ∀ why, s.pc ≠ .joining why)
    (hpanic : s.pc ≠ .panicked) (topic payload : String) (qos : QoS) (retain : Bool)
    (who : Caller) : (s.onPublish topic payload qos retain who).Held := by
  rw [onPublish]
  split
  · refine held_locked (h.keep hjoin hpanic ?_ ?_ rfl rfl rfl) <;>
      cases s.connected <;> exact nofun
  · exact h.keep hjoin hpanic nofun nofun rfl rfl rfl

theorem Held.return {s t : System} (h : s.Held) (hjoin : ∀ why, s.pc ≠ .joining why)
    (hpanic : s.pc ≠ .panicked) {g : Option Reply} {who : Caller} (hpc : t.pc = Caller.return g who)
    (hworker : t.worker = s.worker) (hconn : t.link.shared.connected = s.link.shared.connected)
    (hloop : t.link.loop = s.link.loop) : t.Held := by
  obtain ⟨hstopping, hspawning⟩ := Caller.return_ne g who
  rw [← hpc] at hstopping hspawning
  exact h.keep hjoin hpanic (fun hpc' => absurd hpc' hstopping) hspawning hworker hconn hloop

theorem held_step {set : Settings} {s t : System} {a : Act} (h : s.Held)
    (hs : s.step set a = some t) : t.Held := by
  cases moved_of_step hs with
  | worker _ hl =>
    have hrun := running_of_step hl
    refine ⟨fun hjoin hpanic hnone => ?_, h.stopping, fun hpc => ?_⟩
    · rw [(h.gone hjoin hpanic hnone).2] at hrun
      cases hrun
    · rw [h.spawning hpc] at hrun
      cases hrun
  | die hrun =>
    refine ⟨fun hjoin hpanic hnone => ?_, h.stopping, fun _ => rfl⟩
    rw [(h.gone hjoin hpanic hnone).2] at hrun
    cases hrun
  | advance => exact ⟨h.gone, h.stopping, h.spawning⟩
  | publish hpc => exact held_publish h (by simp [hpc]) (by simp [hpc]) ..
  | goodbye hpc => exact held_publish h (by simp [hpc]) (by simp [hpc]) ..
  | countDrop hpc =>
    rw [onDrop]
    refine held_locked ?_
    split <;> exact h.return (by simp [hpc]) (by simp [hpc]) rfl rfl rfl rfl
  | send hpc =>
    rw [onSend]
    split
    · exact h.keep (by simp [hpc]) (by simp [hpc]) nofun nofun rfl rfl rfl
    · exact h.return (by simp [hpc]) (by simp [hpc]) rfl rfl rfl rfl
  | verdict hpc | timeout hpc => exact h.return (by simp [hpc]) (by simp [hpc]) rfl rfl rfl rfl
  | start hpc | stopIdle hpc =>
    exact h.keep (by simp [hpc]) (by simp [hpc]) nofun nofun rfl rfl rfl
  | maintain hpc =>
    refine held_locked ?_
    split
    · exact h.keep (by simp [hpc]) (by simp [hpc]) nofun nofun rfl rfl rfl
    · exact h
  | maintainOff => exact h
  | stop hpc hworker =>
    refine held_locked
      (h.keep (by simp [hpc]) (by simp [hpc]) (fun _ => hworker) ?_ rfl rfl rfl)
    cases s.connected <;> exact nofun
  | signal => exact ⟨fun hjoin => absurd rfl (hjoin _), nofun, nofun⟩
  | tornDown hpc hworker =>
    exact held_tornDown _ (h.gone (by simp [hpc]) (by simp [hpc]) hworker).2
  | join _ hstill => exact held_tornDown _ hstill
  | spawn hpc =>
    rw [onSpawn]
    refine held_locked ?_
    split
    · exact ⟨fun _ _ hnone => (by cases hnone), nofun, nofun⟩
    · exact ⟨fun _ _ _ => ⟨rfl, h.spawning hpc⟩, nofun, nofun⟩

theorem held_of_reach {set : Settings} {now : Duration} {s : System}
    (h : Reachable (System.step set) (init set now) s) : s.Held :=
  h.invariant (held_init set now) fun _ _ _ hi _ hs => held_step hi hs

end System
end Mqtt
end SystemReport
