import SystemReport.Mqtt.Publisher

/-!
# Recovery by rebuilding the client

`maintain()` throws the client away and starts a new one when the connection has been down for
`recreate_client_after_secs`.  Two things can keep it from doing so for good.

* A rebuild that fails leaves no worker behind, and `maintain()` does nothing without a worker.
  While the publisher is not being stopped, a `maintain()` whose outage has lasted long enough
  rebuilds exactly when the latest `start()` succeeded (`maintain_rebuilds_iff`).
* A network thread that dies leaves the connection flag as it was, and `maintain()` does nothing
  while the flag is set.  A death is noticed exactly when the flag was not set
  (`dead_thread_rebuilt_iff`).
-/

set_option autoImplicit false

open Machine

namespace SystemReport
namespace Mqtt

/-! ## Runs without a stop -/

/-- The calling thread is between two calls, in a call of `publish()`, or about to replace a worker
it still holds. -/
def Pc.settled : Pc → Bool
  | .idle | .dropping .report | .sending _ .report | .waiting _ .report | .signalling .start => true
  | _ => false

/-- The calling thread is in the middle of `start()` and holds no worker. -/
def Pc.replacing : Pc → Bool
  | .joining .start | .spawning => true
  | _ => false

/-- What holds in a run without `stop()`. -/
structure System.Inv (s : System) : Prop where
  since_le : s.link.shared.since ≤ s.now
  pc : s.pc.settled = true ∨ s.pc.replacing = true ∨ s.pc = .panicked
  handle : s.pc.settled = true → (s.worker = true ↔ s.lastStart = some true)
  gone : s.pc.replacing = true → s.worker = false
  joined : s.pc = .spawning → s.running = false
  running_worker : s.running = true → s.pc.settled = true → s.worker = true
  poison : s.poisoned = true → s.running = false

theorem System.inv_init (set : Settings) (now : Duration) : (init set now).Inv where
  since_le := le_refl now
  pc := .inl rfl
  handle _ := by simp [init]
  gone h := by cases h
  joined h := by cases h
  running_worker h := by cases h
  poison h := by cases h

theorem State.since_sharedAfter {s : State} {now : Duration} (h : s.since ≤ now) {i : Input}
    (hi : ∀ t, i = .err t → t = now) : (Link.sharedAfter s i).since ≤ now := by
  cases i with
  | err t =>
    rw [Link.sharedAfter, State.onErr]
    split
    · exact le_of_eq (hi t rfl)
    · exact h
  | _ => exact h

/-- A panic at a poisoned lock changes nothing else. -/
theorem System.inv_panicked {s : System} (h : s.Inv) : ({ s with pc := .panicked } : System).Inv :=
  ⟨h.since_le, .inr (.inr rfl), nofun, nofun, nofun, fun _ => nofun, h.poison⟩

theorem System.inv_locked {s t : System} (h : s.Inv) (ht : s.poisoned = false → t.Inv) :
    (s.locked t).Inv :=
  locked_of (inv_panicked h) ht

theorem Pc.not_replacing {pc : Pc} (h : pc.settled = true) : pc.replacing = false := by
  cases pc with
  | signalling why => cases why <;> simp_all [settled, replacing]
  | _ => simp_all [settled, replacing]

/-- Moving on within a call keeps the invariant, as the worker stays what it was. -/
theorem System.inv_move {s t : System} (h : s.Inv) (hs : s.pc.settled = true)
    (hpc : t.pc.settled = true) (hnow : t.now = s.now)
    (hsince : t.link.shared.since = s.link.shared.since) (hloop : t.link.loop = s.link.loop)
    (hworker : t.worker = s.worker) (hlast : t.lastStart = s.lastStart)
    (hpoison : t.poisoned = s.poisoned) : t.Inv where
  since_le := by rw [hsince, hnow]; exact h.since_le
  pc := .inl hpc
  handle _ := by rw [hworker, hlast]; exact h.handle hs
  gone hr := by rw [Pc.not_replacing hpc] at hr; cases hr
  joined hj := by rw [hj] at hpc; cases hpc
  running_worker hr _ := by
    rw [running, hloop] at hr
    rw [hworker]
    exact h.running_worker hr hs
  poison hp := by
    rw [running, hloop]
    exact h.poison (hpoison ▸ hp)

/-! ## Every step but `stop()` keeps it -/

theorem System.inv_worker {set : Settings} {s : System} {i : Input} {l : Link} (h : s.Inv)
    (hallow : s.admits i = true) (hl : s.link.step set i = some l) :
    ({ s with link := l, slot := s.slotAfter i } : System).Inv := by
  have hrun : s.running = true := running_of_step hl
  refine ⟨?_, h.pc, h.handle, h.gone, fun hj => ?_, fun _ hpc => h.running_worker hrun hpc,
    fun hp => ?_⟩
  · rw [show ({ s with link := l, slot := s.slotAfter i } : System).link.shared = l.shared from rfl,
      (Link.shared_phase_step hl).1]
    refine State.since_sharedAfter h.since_le fun t' ht => ?_
    subst ht
    simpa [admits] using hallow
  · rw [h.joined hj] at hrun
    cases hrun
  · rw [h.poison hp] at hrun
    cases hrun

theorem System.inv_die {s : System} {inClock : Bool} (h : s.Inv) : (s.onDie inClock).Inv where
  since_le := by
    cases inClock <;> exact h.since_le
  pc := h.pc
  handle := h.handle
  gone := h.gone
  joined _ := rfl
  running_worker hr := by cases hr
  poison _ := rfl

theorem System.inv_drop {s : System} {who : Caller} (h : s.Inv) (hpc : s.pc = .dropping who)
    (hset : s.pc.settled = true) : (s.onDrop who).Inv := by
  have hwho : (Caller.return none who).settled = true := by
    cases who with
    | report => rfl
    | goodbye => rw [hpc] at hset; cases hset
  rw [onDrop]
  refine inv_locked h fun _ => ?_
  split
  · exact inv_move h hset hwho rfl rfl rfl rfl rfl rfl
  · exact inv_move h hset hwho rfl rfl rfl rfl rfl rfl

theorem System.inv_spawn {set : Settings} {s : System} {outcome : Spawn} (h : s.Inv)
    (hpc : s.pc = .spawning) : (s.onSpawn set outcome).Inv := by
  rw [onSpawn]
  refine inv_locked h fun hp => ?_
  have hgone : s.worker = false := h.gone (by rw [hpc]; rfl)
  split
  · refine ⟨le_refl _, .inl rfl, fun _ => by simp, by rintro ⟨⟩, by rintro ⟨⟩, fun _ _ => rfl,
      fun hpo => ?_⟩
    rw [show s.poisoned = true from hpo] at hp
    cases hp
  · have hstill : s.running = false := h.joined hpc
    refine ⟨le_refl _, .inl rfl, fun _ => by simp [hgone], by rintro ⟨⟩, by rintro ⟨⟩,
      fun hr _ => ?_, h.poison⟩
    rw [show s.running = true from hr] at hstill
    cases hstill

theorem System.inv_publish {s : System} {topic payload : String} {qos : QoS} {retain : Bool}
    (h : s.Inv) (hpc : s.pc = .idle) : (s.onPublish topic payload qos retain .report).Inv := by
  have hset : s.pc.settled = true := by rw [hpc]; rfl
  rw [onPublish]
  split
  · refine inv_locked h fun _ => ?_
    refine inv_move h hset ?_ rfl rfl rfl rfl rfl rfl
    show (if s.connected then Pc.sending _ .report else .dropping .report).settled = true
    split <;> rfl
  · exact inv_move h hset rfl rfl rfl rfl rfl rfl rfl

theorem System.inv_send {s : System} {m : Message} {who : Caller} (h : s.Inv)
    (hpc : s.pc = .sending m who) (hset : s.pc.settled = true) : (s.onSend m who).Inv := by
  cases who with
  | goodbye => rw [hpc] at hset; cases hset
  | report =>
    rw [onSend]
    split
    · exact inv_move h hset rfl rfl rfl rfl rfl rfl rfl
    · exact inv_move h hset rfl rfl rfl rfl rfl rfl rfl

/-- The end of `teardown()` on the way to a new worker. -/
theorem System.inv_tornDown {s : System} (h : s.Inv) (hgone : s.worker = false)
    (hstill : s.running = false) : (s.onTornDown .start).Inv := by
  rw [onTornDown]
  refine inv_locked h fun _ => ?_
  exact ⟨h.since_le, .inr (.inl rfl), by rintro ⟨⟩, fun _ => hgone, fun _ => hstill,
    fun _ => by rintro ⟨⟩, fun _ => hstill⟩

/-- In a run without `stop()` the calling thread is never in the middle of one. -/
theorem Pc.settled_of_waiting {s : System} (h : s.Inv) {r : Reply} {who : Caller}
    (hpc : s.pc = .waiting r who) : who = .report := by
  rcases h.pc with h | h | h
  · cases who with
    | report => rfl
    | goodbye => rw [hpc] at h; cases h
  · rw [hpc] at h; cases h
  · rw [hpc] at h; cases h

/-- A thread that is neither replacing a worker nor panicked is settled. -/
theorem System.Inv.settled {s : System} (h : s.Inv) {pc : Pc} (hpc : s.pc = pc)
    (hrep : pc.replacing = false) (hpan : pc ≠ .panicked) : s.pc.settled = true := by
  rcases h.pc with h | h | h
  · exact h
  · rw [hpc, hrep] at h; cases h
  · exact absurd (hpc.symm.trans h) hpan

theorem System.inv_step {set : Settings} {s t : System} {a : Act} (h : s.Inv) (ha : a ≠ .stop)
    (hs : s.step set a = some t) : t.Inv := by
  cases moved_of_step hs with
  | worker hallow hl => exact inv_worker h hallow hl
  | die => exact inv_die h
  | advance hle =>
    exact ⟨h.since_le.trans hle, h.pc, h.handle, h.gone, h.joined, h.running_worker, h.poison⟩
  | publish hpc => exact inv_publish h hpc
  | goodbye hpc => rcases h.pc with h | h | h <;> rw [hpc] at h <;> cases h
  | countDrop hpc => exact inv_drop h hpc (h.settled hpc rfl nofun)
  | send hpc => exact inv_send h hpc (h.settled hpc rfl nofun)
  | verdict hpc | timeout hpc =>
    obtain rfl := Pc.settled_of_waiting h hpc
    exact inv_move h (h.settled hpc rfl nofun) rfl rfl rfl rfl rfl rfl rfl
  | start hpc => exact inv_move h (h.settled hpc rfl nofun) rfl rfl rfl rfl rfl rfl rfl
  | maintain hpc =>
    refine inv_locked h fun _ => ?_
    split
    · exact inv_move h (h.settled hpc rfl nofun) rfl rfl rfl rfl rfl rfl rfl
    · exact h
  | maintainOff => exact h
  | stop | stopIdle => exact absurd rfl ha
  | @signal why hpc =>
    have hset := h.settled hpc rfl nofun
    cases why with
    | stop g => rw [hpc] at hset; cases hset
    | start => exact ⟨h.since_le, .inr (.inl rfl), nofun, fun _ => rfl, nofun, fun _ => nofun, h.poison⟩
  | @tornDown why hpc hworker =>
    have hset := h.settled hpc rfl nofun
    cases why with
    | stop g => rw [hpc] at hset; cases hset
    | start =>
      refine inv_tornDown h hworker ?_
      by_contra hrun
      exact absurd (h.running_worker (by simpa using hrun) hset) (by simp [hworker])
  | @join why hpc hstill =>
    cases why with
    | stop g => rcases h.pc with h | h | h <;> rw [hpc] at h <;> cases h
    | start => exact inv_tornDown h (h.gone (by rw [hpc]; rfl)) hstill
  | spawn hpc => exact inv_spawn h hpc

theorem System.inv_of_reach {set : Settings} {C : System → Act → Prop}
    (hC : ∀ s a, C s a → a ≠ .stop) {now : Duration} {s : System}
    (h : Reach (System.step set) C (System.init set now) s) : s.Inv :=
  h.invariant (inv_init set now) fun _ _ _ hi hc hs => inv_step hi (hC _ _ hc) hs

/-! ## When `maintain()` rebuilds -/

/-- A `maintain()` call in `s` goes on to `start()`, so it returns `Ok(true)` or an error. -/
def System.Rebuilds (set : Settings) (s : System) : Prop :=
  ∃ t, s.step set .maintain = some t ∧ t.pc = .signalling .start

/-- An outage of positive length is one without a connection. -/
theorem System.not_connected_of_outage {set : Settings} {s : System}
    (hrec : set.recreate.isZero = false) (hout : set.recreate ≤ s.disconnectedFor) :
    s.connected = false := by
  by_contra hconn
  rw [disconnectedFor, if_pos (by simpa using hconn), Duration.le_def] at hout
  have hpos : set.recreate.nanos ≠ 0 := fun h => by simp [(Duration.isZero_iff _).2 h] at hrec
  exact hpos (Nat.le_zero.1 hout)

theorem System.rebuilds_iff {set : Settings} {s : System} (hclean : set.cleanSession = true)
    (hrec : set.recreate.isZero = false) (hidle : s.pc = .idle) :
    s.Rebuilds set ↔ s.poisoned = false ∧ s.connected = false ∧ s.worker = true ∧
      set.recreate ≤ s.disconnectedFor := by
  have hstep : s.step set .maintain =
      some (s.locked (if s.wantsRebuild set then { s with pc := .signalling .start } else s)) := by
    rw [step, if_pos hidle, hclean, hrec]
    rfl
  rw [Rebuilds, hstep, locked, wantsRebuild, hclean, hrec]
  cases hp : s.poisoned <;> cases hw : s.worker <;> cases hc : s.connected <;>
    simp [hidle]
  split <;> simp_all

/-- A run of `start`, `publish` and `maintain` calls and network events. -/
def Undisturbed (_ : System) (a : Act) : Prop := a ≠ .stop ∧ ∀ inClock, a ≠ .die inClock

instance (s : System) : DecidablePred (Undisturbed s) := fun a =>
  match a with
  | .stop => isFalse fun h => h.1 rfl
  | .die inClock => isFalse fun h => h.2 inClock rfl
  | .worker _ | .advance _ | .publish _ _ _ _ | .goodbye | .countDrop | .send | .verdict _
  | .timeout | .start | .maintain | .signal | .join | .spawn _ => isTrue ⟨nofun, nofun⟩

theorem System.poisoned_locked {s t : System} (h : t.poisoned = s.poisoned) :
    (s.locked t).poisoned = s.poisoned :=
  locked_of (P := fun t => t.poisoned = s.poisoned) rfl fun _ => h

theorem System.poisoned_publish (s : System) (topic payload : String) (qos : QoS) (retain : Bool)
    (who : Caller) : (s.onPublish topic payload qos retain who).poisoned = s.poisoned := by
  rw [onPublish]
  split
  · exact poisoned_locked rfl
  · rfl

/-- Only a death of the network thread poisons the lock. -/
theorem System.poisoned_step {set : Settings} {s t : System} {a : Act}
    (ha : ∀ inClock, a ≠ .die inClock) (hs : s.step set a = some t) : t.poisoned = s.poisoned := by
  cases moved_of_step hs with
  | die => exact absurd rfl (ha _)
  | publish | goodbye => exact poisoned_publish ..
  | send =>
    rw [onSend]
    split <;> rfl
  | stop | tornDown | join => exact poisoned_locked rfl
  | countDrop | maintain | spawn =>
    refine poisoned_locked ?_
    split <;> rfl
  | worker | advance | verdict | timeout | start | maintainOff | stopIdle | signal => rfl

/-- **A failed rebuild is the one thing that keeps `maintain()` from rebuilding.**  In every run of
`start`, `publish` and `maintain` calls and network events, whatever becomes of building runtimes
and spawning threads: where the outage has lasted for `recreate_client_after_secs`, a `maintain()`
call attempts a rebuild exactly when the latest `start()` succeeded. -/
theorem maintain_rebuilds_iff (set : Settings) (hclean : set.cleanSession = true)
    (hrec : set.recreate.isZero = false) (now : Duration) (s : System)
    (h : Reach (System.step set) Undisturbed (System.init set now) s) (hidle : s.pc = .idle)
    (hout : set.recreate ≤ s.disconnectedFor) :
    s.Rebuilds set ↔ s.lastStart = some true := by
  have hinv : s.Inv := System.inv_of_reach (fun _ _ hc => hc.1) h
  have hpoison : s.poisoned = false :=
    h.invariant (I := fun s => s.poisoned = false) rfl
      fun _ _ _ hi hc hs => (System.poisoned_step hc.2 hs).trans hi
  rw [System.rebuilds_iff hclean hrec hidle, ← hinv.handle (by rw [hidle]; rfl)]
  simp [hpoison, hout, System.not_connected_of_outage hrec hout]

/-! ### A rebuild that fails -/

/-- The first rebuild after an outage of 900 s cannot spawn its thread; the outage goes on. -/
def failedRebuild : List Act :=
  [.start, .signal, .spawn .ok, .advance (.fromSecs 900), .maintain, .signal, .worker (.stop false),
    .join, .spawn .noThread, .advance (.fromSecs 1800)]

/-- No worker is left, and after another 900 s `maintain()` still returns `Ok(false)`. -/
theorem failedRebuild_wedges : ¬ ∀ (set : Settings) (now : Duration) (s : System),
    set.cleanSession = true → set.recreate.isZero = false →
    Reach (System.step set) Undisturbed (System.init set now) s → s.pc = .idle →
    s.lastStart ≠ none → set.recreate ≤ s.disconnectedFor → s.Rebuilds set := by
  intro hall
  have hrun : (execWhile (System.step .defaults) Undisturbed (.init .defaults .zero)
      failedRebuild).isSome := by decide
  have hreb := hall .defaults .zero _ rfl (by decide) (Reach.of_isSome hrun) rfl nofun
    (by decide +revert)
  rw [System.rebuilds_iff rfl (by decide) rfl] at hreb
  exact absurd hreb.2.2.1 nofun

/-- While the first worker is still trying to connect, its rebuild is due. -/
theorem maintain_rebuilds_iff_first : ∃ s : System, s.lastStart = some true ∧
    (s.Rebuilds .defaults ↔ s.lastStart = some true) := by
  have hrun : (execWhile (System.step .defaults) Undisturbed (.init .defaults .zero)
      [.start, .signal, .spawn .ok, .worker (.err .zero), .worker .wake,
        .advance (.fromSecs 900)]).isSome := by decide
  exact ⟨_, rfl, maintain_rebuilds_iff .defaults rfl (by decide) .zero _ (Reach.of_isSome hrun)
    rfl (by decide +revert)⟩

/-! ## A dead network thread -/

/-- What is left of a run once the network thread is gone, as long as no other one is started and
the publisher is not stopped. -/
def Unattended (_ : System) (a : Act) : Prop := a ≠ .stop ∧ ∀ outcome, a ≠ .spawn outcome

instance (s : System) : DecidablePred (Unattended s) := fun a =>
  match a with
  | .stop => isFalse fun h => h.1 rfl
  | .spawn outcome => isFalse fun h => h.2 outcome rfl
  | .worker _ | .die _ | .advance _ | .publish _ _ _ _ | .goodbye | .countDrop | .send | .verdict _
  | .timeout | .start | .maintain | .signal | .join => isTrue ⟨nofun, nofun⟩

/-- A run in which the publisher is not stopped. -/
def NotStopped (_ : System) (a : Act) : Prop := a ≠ .stop

instance (s : System) : DecidablePred (NotStopped s) := fun a =>
  inferInstanceAs (Decidable (a ≠ .stop))

/-- After the death of the thread the flag and the start of the outage stay what they were, for as
long as the calling thread holds the dead worker. -/
structure System.Dead (t s₁ : System) : Prop where
  still : t.running = false
  poison : t.poisoned = s₁.poisoned
  flag : t.pc.settled = true →
    t.worker = true ∧ t.connected = s₁.connected ∧ t.link.shared.since = s₁.link.shared.since

theorem System.dead_locked {s₁ s t : System} (h : s.Dead s₁) (ht : t.Dead s₁) :
    (s.locked t).Dead s₁ :=
  locked_of (P := fun t => t.Dead s₁) ⟨h.still, h.poison, nofun⟩ fun _ => ht

/-- A step within a call leaves the dead worker and what it wrote alone. -/
theorem System.dead_move {s₁ s t : System} (h : s.Dead s₁) (hset : s.pc.settled = true)
    (hloop : t.link.loop = s.link.loop) (hpoison : t.poisoned = s.poisoned)
    (hworker : t.worker = s.worker) (hconn : t.connected = s.connected)
    (hsince : t.link.shared.since = s.link.shared.since) : t.Dead s₁ where
  still := by rw [running, hloop]; exact h.still
  poison := hpoison.trans h.poison
  flag _ := by rw [hworker, hconn, hsince]; exact h.flag hset

/-- On the way to a new worker there is no dead one left to look at. -/
theorem System.dead_replacing {s₁ s t : System} (h : s.Dead s₁)
    (hloop : t.link.loop = s.link.loop) (hpoison : t.poisoned = s.poisoned)
    (hpc : t.pc.settled = false) : t.Dead s₁ where
  still := by rw [running, hloop]; exact h.still
  poison := hpoison.trans h.poison
  flag hset := by rw [hpc] at hset; cases hset

theorem System.dead_step {set : Settings} {s₁ s t : System} {a : Act} (hinv : s.Inv)
    (h : s.Dead s₁) (ha : Unattended s a) (hs : s.step set a = some t) : t.Dead s₁ := by
  cases moved_of_step hs with
  | worker _ hl =>
    have hrun := running_of_step hl
    rw [h.still] at hrun
    cases hrun
  | die hrun =>
    rw [h.still] at hrun
    cases hrun
  | advance => exact ⟨h.still, h.poison, h.flag⟩
  | publish hpc =>
    have hset := hinv.settled hpc rfl (by simp)
    rw [onPublish]
    split
    · exact dead_locked h (dead_move h hset rfl rfl rfl rfl rfl)
    · exact dead_move h hset rfl rfl rfl rfl rfl
  | goodbye hpc =>
    have hset := hinv.settled hpc rfl (by simp)
    rw [hpc] at hset
    cases hset
  | countDrop hpc =>
    have hset := hinv.settled hpc rfl (by simp)
    refine dead_locked h ?_
    split <;> exact dead_move h hset rfl rfl rfl rfl rfl
  | send hpc =>
    have hset := hinv.settled hpc rfl (by simp)
    rw [onSend]
    split <;> exact dead_move h hset rfl rfl rfl rfl rfl
  | verdict hpc | timeout hpc | start hpc =>
    exact dead_move h (hinv.settled hpc rfl (by simp)) rfl rfl rfl rfl rfl
  | maintain hpc =>
    refine dead_locked h ?_
    split
    · exact dead_move h (hinv.settled hpc rfl (by simp)) rfl rfl rfl rfl rfl
    · exact h
  | maintainOff => exact h
  | stop | stopIdle => exact absurd rfl ha.1
  | @signal why hpc | @tornDown why hpc =>
    have hset := hinv.settled hpc rfl (by simp)
    cases why with
    | stop g => rw [hpc] at hset; cases hset
    | start =>
      first
      | exact dead_replacing h rfl rfl rfl
      | exact dead_locked h (dead_replacing h rfl rfl rfl)
  | @join why hpc =>
    cases why with
    | stop g => rcases hinv.pc with h | h | h <;> rw [hpc] at h <;> cases h
    | start => exact dead_locked h (dead_replacing h rfl rfl rfl)
  | spawn => exact absurd rfl (ha.2 _)

/-- From the death of the thread on, as long as no other one is started. -/
theorem System.dead_of_reach {set : Settings} {s s₂ : System} {inClock : Bool} (h : s.Inv)
    (hrun : s.running = true) (h₂ : Reach (System.step set) Unattended (s.onDie inClock) s₂) :
    s₂.Dead (s.onDie inClock) := by
  have hinv : ∀ t, Reach (System.step set) Unattended (s.onDie inClock) t → t.Inv := fun t ht =>
    ht.invariant (inv_die h) fun _ _ _ hi hc hs => inv_step hi hc.1 hs
  exact h₂.along (I := fun t => t.Dead (s.onDie inClock)) hinv
    ⟨rfl, rfl, fun hset => ⟨h.running_worker hrun hset, rfl, rfl⟩⟩
    fun _ _ _ hi hd hc hs => dead_step hi hd hc hs

/-- An outage that was on when the thread died has lasted at least since then. -/
theorem System.disconnectedFor_of_dead {s s₂ : System} {inClock : Bool} (h : s.Inv)
    (hdead : s₂.Dead (s.onDie inClock)) (hset : s₂.pc.settled = true)
    (hconn : s₂.connected = false) {d : Duration} (hlater : s.now.nanos + d.nanos ≤ s₂.now.nanos) :
    d ≤ s₂.disconnectedFor := by
  have hsince : s₂.link.shared.since = s.link.shared.since := by
    rw [(hdead.flag hset).2.2]
    cases inClock <;> rfl
  have hle := Duration.le_def.1 h.since_le
  rw [disconnectedFor, hconn, if_neg Bool.false_ne_true, Duration.le_def,
    Duration.nanos_saturatingSub, hsince]
  omega

/-- **The death of the network thread is noticed exactly when the flag was not set.**  The thread
dies in a state `s` of a run without `stop()`.  From then on, as long as no client has been rebuilt,
a `maintain()` call made `recreate_client_after_secs` or more later rebuilds it just if the
connection flag was not set in `s`. -/
theorem dead_thread_rebuilt_iff (set : Settings) (hclean : set.cleanSession = true)
    (hrec : set.recreate.isZero = false) (now : Duration) (s s₁ s₂ : System) (inClock : Bool)
    (h : Reach (System.step set) NotStopped (System.init set now) s)
    (hdie : s.step set (.die inClock) = some s₁)
    (h₂ : Reach (System.step set) Unattended s₁ s₂) (hidle : s₂.pc = .idle)
    (hlater : s.now.nanos + set.recreate.nanos ≤ s₂.now.nanos) :
    s₂.Rebuilds set ↔ s.connected = false := by
  have hinv : s.Inv := System.inv_of_reach (fun _ _ hc => hc) h
  have hset : s₂.pc.settled = true := by rw [hidle]; rfl
  cases System.moved_of_step hdie with
  | die hrun hclock =>
    have hdead := System.dead_of_reach hinv hrun h₂
    obtain ⟨hworker, hconn, -⟩ := hdead.flag hset
    rw [System.rebuilds_iff hclean hrec hidle, hdead.poison, hworker]
    cases inClock with
    | true =>
      -- the panic poisons the lock, and it is one on an established connection
      simp [System.onDie, (hclock rfl).2]
    | false =>
      have hpoison : s.poisoned = false := by
        by_contra hp
        have hstill := hinv.poison (by simpa using hp)
        rw [hrun] at hstill
        cases hstill
      have hflag : s₂.connected = s.connected := hconn
      constructor
      · rintro ⟨-, hno, -, -⟩
        exact hflag ▸ hno
      · intro hno
        have hno₂ : s₂.connected = false := hflag.trans hno
        exact ⟨by simp [System.onDie, hpoison], hno₂, rfl,
          System.disconnectedFor_of_dead hinv hdead hset hno₂ hlater⟩

/-- A thread that dies while it is still trying to connect is replaced after 900 s. -/
theorem dead_thread_rebuilt_iff_connecting : ∃ s₂ : System, s₂.lastStart = some true ∧
    (s₂.Rebuilds .defaults ↔ false = false) := by
  have hrun : (execWhile (System.step .defaults) NotStopped (.init .defaults .zero)
      [.start, .signal, .spawn .ok]).isSome := by decide
  have hafter : (execWhile (System.step .defaults) Unattended
      (((execWhile (System.step .defaults) NotStopped (.init .defaults .zero)
        [.start, .signal, .spawn .ok]).get hrun).onDie false)
      [.advance (.fromSecs 900)]).isSome := by decide +revert
  exact ⟨_, rfl, dead_thread_rebuilt_iff .defaults rfl (by decide) .zero _ _ _ false
    (Reach.of_isSome hrun) rfl (Reach.of_isSome hafter) rfl (by decide +revert)⟩

/-- The thread dies on an established connection: its flag keeps `maintain()` from rebuilding, half
an hour later and ever after. -/
theorem deadWhileConnected_hidden : ¬ ∀ (set : Settings) (now : Duration) (s s₁ s₂ : System),
    set.cleanSession = true → set.recreate.isZero = false →
    Reach (System.step set) NotStopped (System.init set now) s →
    s.step set (.die false) = some s₁ → Reach (System.step set) Unattended s₁ s₂ →
    s₂.pc = .idle → s.now.nanos + set.recreate.nanos ≤ s₂.now.nanos → s₂.Rebuilds set := by
  intro hall
  have hrun : (execWhile (System.step .defaults) NotStopped (.init .defaults .zero)
      [.start, .signal, .spawn .ok, .worker (.connAck [] true)]).isSome := by decide
  have hafter : (execWhile (System.step .defaults) Unattended
      (((execWhile (System.step .defaults) NotStopped (.init .defaults .zero)
        [.start, .signal, .spawn .ok, .worker (.connAck [] true)]).get hrun).onDie false)
      [.advance (.fromSecs 1800)]).isSome := by decide +revert
  have hreb := hall .defaults .zero _ _ _ rfl (by decide) (Reach.of_isSome hrun) rfl
    (Reach.of_isSome hafter) rfl (by decide +revert)
  rw [System.rebuilds_iff rfl (by decide) rfl] at hreb
  exact absurd hreb.2.1 nofun

end Mqtt
end SystemReport
