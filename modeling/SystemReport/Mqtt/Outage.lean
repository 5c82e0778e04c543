import SystemReport.Mqtt.Recovery

/-!
# The outage clock

`State.connected` and `State.since` are written from five places in two threads.  This file
describes them from outside: by the connection events of a run, which are the starts of a worker,
the `ConnAck`s and the `Err`s.  An `Err` begins an outage only if a `ConnAck` is the event before
it; otherwise it is a retry that failed.

`outage_clock` says that the flag and the clock are what these events make them, and that
`maintain()` goes by them.
-/

set_option autoImplicit false

open Machine

namespace SystemReport
namespace Mqtt

/-! ## Connection events -/

/-- An event on the way to the broker, with the clock where it is read. -/
inductive ConnEvent
  /-- `start()` has spawned a worker -/
  | started (now : Duration)
  | connAck
  | err (now : Duration)
deriving DecidableEq, Repr

/-- The events in a step. -/
def System.connEvents (s : System) (a : Act) (_ : System) : List ConnEvent :=
  match a with
  | .spawn _ => [.started s.now]
  | .worker (.connAck _ _) => [.connAck]
  | .worker (.err now) => [.err now]
  | _ => []

/-- The events of the current worker, the latest first. -/
def current (log : List ConnEvent) : List ConnEvent :=
  log.takeWhile fun
    | .started _ => false
    | _ => true

/-- The last event of the current worker is a `ConnAck`. -/
def up (log : List ConnEvent) : Bool := (current log).head? == some .connAck

/-- When the last worker was started. -/
def lastStart : List ConnEvent → Option Duration
  | [] => none
  | .started now :: _ => some now
  | _ :: log => lastStart log

/-- When a connection was last lost. -/
def lastLoss : List ConnEvent → Option Duration
  | [] => none
  | .err now :: log => if up log then some now else lastLoss log
  | _ :: log => lastLoss log

/-- The beginning of the outage: the last start or the last loss, whichever is later. -/
def outageStart (log : List ConnEvent) : Duration :=
  max ((lastStart log).getD .zero) ((lastLoss log).getD .zero)

@[simp] theorem up_nil : up [] = false := rfl

@[simp] theorem up_started (now : Duration) (log : List ConnEvent) :
    up (.started now :: log) = false := rfl

@[simp] theorem up_connAck (log : List ConnEvent) : up (.connAck :: log) = true := rfl

@[simp] theorem up_err (now : Duration) (log : List ConnEvent) : up (.err now :: log) = false := rfl

theorem up_iff {log : List ConnEvent} : up log = true ↔ (current log).head? = some .connAck := by
  rw [up, beq_iff_eq]

@[simp] theorem lastStart_err (now : Duration) (log : List ConnEvent) :
    lastStart (.err now :: log) = lastStart log := rfl

@[simp] theorem lastLoss_err (now : Duration) (log : List ConnEvent) :
    lastLoss (.err now :: log) = if up log then some now else lastLoss log := rfl

@[simp] theorem outageStart_connAck (log : List ConnEvent) :
    outageStart (.connAck :: log) = outageStart log := rfl

/-- A retry that fails does not begin an outage. -/
theorem outageStart_retry {log : List ConnEvent} (h : up log = false) (now : Duration) :
    outageStart (.err now :: log) = outageStart log := by
  simp [outageStart, h]

/-- A loss does, as it comes after all that was before. -/
theorem outageStart_loss {log : List ConnEvent} (h : up log = true) {now : Duration}
    (hpast : outageStart log ≤ now) : outageStart (.err now :: log) = now := by
  rw [outageStart, lastStart_err, lastLoss_err, h]
  exact max_eq_right ((le_max_left _ _).trans hpast)

theorem outageStart_started {log : List ConnEvent} {now : Duration}
    (hpast : outageStart log ≤ now) : outageStart (.started now :: log) = now :=
  max_eq_left ((le_max_right _ _).trans hpast)

/-! ## Runs -/

/-- A run without `stop()` in which every worker can be spawned and none dies. -/
def Smooth (s : System) (a : Act) : Prop :=
  Undisturbed s a ∧ ∀ outcome, a = .spawn outcome → outcome = .ok

instance (s : System) : DecidablePred (Smooth s) := fun a =>
  match a with
  | .spawn outcome =>
    decidable_of_iff (outcome = .ok)
      ⟨fun h => ⟨⟨nofun, nofun⟩, fun _ ho => by cases ho; exact h⟩, fun h => h.2 outcome rfl⟩
  | .worker _ | .die _ | .advance _ | .publish _ _ _ _ | .goodbye | .countDrop | .send | .verdict _
  | .timeout | .start | .maintain | .stop | .signal | .join =>
    decidable_of_iff (Undisturbed s _) ⟨fun h => ⟨h, nofun⟩, And.left⟩

/-- The flag and the clock are what the events make them. -/
structure System.Tracks (s : System) (log : List ConnEvent) : Prop where
  sound : s.poisoned = false
  past : outageStart log ≤ s.now
  /-- no thread without a start -/
  begun : s.running = true → log ≠ []
  /-- outside `start()`, the thread runs and has not been told to stop -/
  active : s.pc.settled = true → log ≠ [] → s.running = true ∧ s.stopSent = false
  flag : s.running = true → s.connected = up log
  since : log ≠ [] → s.link.shared.since = outageStart log

namespace System

theorem tracks_init (set : Settings) (now : Duration) : (init set now).Tracks [] where
  sound := rfl
  past := Nat.zero_le _
  begun h := by cases h
  active _ h := absurd rfl h
  flag h := by cases h
  since h := absurd rfl h

namespace Tracks

variable {set : Settings} {s t : System} {log : List ConnEvent}

/-- A step of the calling thread that leaves the worker and the shared state alone. -/
theorem keep (h : s.Tracks log) (hset : s.pc.settled = true) (hpoison : t.poisoned = s.poisoned)
    (hnow : t.now = s.now) (hconn : t.link.shared.connected = s.link.shared.connected)
    (hsince : t.link.shared.since = s.link.shared.since) (hloop : t.link.loop = s.link.loop)
    (hstop : t.stopSent = s.stopSent) : t.Tracks log := by
  have hrun : t.running = s.running := by rw [running, running, hloop]
  refine ⟨hpoison.trans h.sound, by rw [hnow]; exact h.past, ?_, fun _ => ?_, ?_, ?_⟩
  · rw [hrun]
    exact h.begun
  · rw [hrun, hstop]
    exact h.active hset
  · rw [hrun, connected, hconn]
    exact h.flag
  · rw [hsince]
    exact h.since

/-- A step of the network thread. -/
theorem worker (h : s.Tracks log) {i : Input} {l : Link} (hallow : s.admits i = true)
    (hl : s.link.step set i = some l) (ht : t = { s with link := l, slot := s.slotAfter i }) :
    t.Tracks (s.connEvents (.worker i) t ++ log) := by
  have hrun : s.running = true := running_of_step hl
  have hne := h.begun hrun
  have hflag : s.link.shared.connected = up log := h.flag hrun
  have hsince := h.since hne
  obtain ⟨hshared, hphase⟩ := Link.shared_phase_step hl
  cases i with
  | stop disconnect =>
    have hstill : t.running = false := by simp [ht, running, hphase, Link.phaseAfter]
    have hsent : s.stopSent = true := hallow
    subst ht
    refine ⟨h.sound, h.past, fun _ => hne, fun hset _ => ?_, fun hr => ?_, fun _ => ?_⟩
    · rw [(h.active hset hne).2] at hsent
      cases hsent
    · rw [hstill] at hr
      cases hr
    · simpa [connEvents, hshared, Link.sharedAfter, State.onExit] using hsince
  | connAck resumed ok =>
    subst ht
    refine ⟨h.sound, h.past, fun _ => by simp [connEvents], fun hset _ => ?_, fun _ => ?_, fun _ => ?_⟩
    · exact ⟨by simp [running, hphase, Link.phaseAfter], (h.active hset hne).2⟩
    · simp [connected, connEvents, hshared, Link.sharedAfter, State.onConnAck]
    · simpa [connEvents, hshared, Link.sharedAfter, State.onConnAck] using hsince
  | err now =>
    have hnow : now = s.now := by simpa [admits] using hallow
    subst ht hnow
    refine ⟨h.sound, ?_, fun _ => by simp [connEvents], fun hset _ => ?_, fun _ => ?_, fun _ => ?_⟩
    · cases hup : up log with
      | true => simp [connEvents, outageStart_loss hup h.past]
      | false => simpa [connEvents, outageStart_retry hup] using h.past
    · exact ⟨by simp [running, hphase, Link.phaseAfter], (h.active hset hne).2⟩
    · cases hup : up log with
      | true => simp [connected, connEvents, hshared, Link.sharedAfter, State.onErr, hflag, hup]
      | false => simp [connected, connEvents, hshared, Link.sharedAfter, State.onErr, hflag, hup]
    · cases hup : up log with
      | true =>
        simp [connEvents, hshared, Link.sharedAfter, State.onErr, hflag, hup,
          outageStart_loss hup h.past]
      | false =>
        simpa [connEvents, hshared, Link.sharedAfter, State.onErr, hflag, hup,
          outageStart_retry hup] using hsince
  | _ =>
    subst ht
    refine ⟨h.sound, h.past, fun _ => hne, fun hset _ => ?_, fun _ => ?_, fun _ => ?_⟩
    · exact ⟨by simp [running, hphase, Link.phaseAfter], (h.active hset hne).2⟩
    · rw [connected, hshared]
      exact hflag
    · rw [hshared]
      exact hsince

/-- With the thread gone, the flag says nothing about it. -/
theorem gone (h : s.Tracks log) (hstill : t.running = false) (hset : t.pc.settled = false)
    (hpoison : t.poisoned = s.poisoned) (hnow : t.now = s.now)
    (hsince : t.link.shared.since = s.link.shared.since) : t.Tracks log where
  sound := hpoison.trans h.sound
  past := by rw [hnow]; exact h.past
  begun hr := by rw [hstill] at hr; cases hr
  active hs := by rw [hset] at hs; cases hs
  flag hr := by rw [hstill] at hr; cases hr
  since hne := by rw [hsince]; exact h.since hne

theorem spawn (h : s.Tracks log) : (s.onSpawn set .ok).Tracks (.started s.now :: log) := by
  rw [onSpawn, locked_of_sound h.sound, if_pos rfl]
  refine ⟨h.sound, ?_, fun _ => List.cons_ne_nil _ _, fun _ _ => ⟨rfl, rfl⟩, fun _ => rfl, fun _ => ?_⟩
  · rw [outageStart_started h.past]
  · rw [outageStart_started h.past]

/-- **Every step keeps it.** -/
theorem step (h : s.Tracks log) (hinv : s.Inv) {a : Act} (ha : Smooth s a)
    (hs : s.step set a = some t) : t.Tracks (s.connEvents a t ++ log) := by
  cases moved_of_step hs with
  | worker hallow hl => exact h.worker hallow hl rfl
  | die => exact absurd rfl (ha.1.2 _)
  | advance hle =>
    exact ⟨h.sound, h.past.trans hle, h.begun, h.active, h.flag, h.since⟩
  | publish hpc =>
    have hset := hinv.settled hpc rfl (by simp)
    rw [onPublish]
    split
    · rw [locked_of_sound h.sound]
      exact h.keep hset rfl rfl rfl rfl rfl rfl
    · exact h.keep hset rfl rfl rfl rfl rfl rfl
  | goodbye hpc =>
    have hset := hinv.settled hpc rfl (by simp)
    rw [hpc] at hset
    cases hset
  | countDrop hpc =>
    have hset := hinv.settled hpc rfl (by simp)
    rw [onDrop, locked_of_sound h.sound]
    split <;> exact h.keep hset rfl rfl rfl rfl rfl rfl
  | send hpc =>
    have hset := hinv.settled hpc rfl (by simp)
    rw [onSend]
    split <;> exact h.keep hset rfl rfl rfl rfl rfl rfl
  | verdict hpc | timeout hpc | start hpc =>
    exact h.keep (hinv.settled hpc rfl (by simp)) rfl rfl rfl rfl rfl rfl
  | maintain hpc =>
    have hset := hinv.settled hpc rfl (by simp)
    rw [locked_of_sound h.sound]
    split
    · exact h.keep hset rfl rfl rfl rfl rfl rfl
    · exact h
  | maintainOff => exact h
  | stop | stopIdle => exact absurd rfl ha.1.1
  | signal hpc =>
    exact ⟨h.sound, h.past, h.begun, by rintro ⟨⟩, h.flag, h.since⟩
  | @tornDown why hpc hworker =>
    have hset := hinv.settled hpc rfl (by simp)
    have hstill : s.running = false := by
      by_contra hrun
      exact absurd (hinv.running_worker (by simpa using hrun) hset) (by simp [hworker])
    rw [onTornDown, locked_of_sound h.sound]
    cases why with
    | stop g => rw [hpc] at hset; cases hset
    | start => exact h.gone hstill rfl rfl rfl rfl
  | @join why hpc hstill =>
    rw [onTornDown, locked_of_sound h.sound]
    cases why with
    | stop g => rcases hinv.pc with h | h | h <;> rw [hpc] at h <;> cases h
    | start => exact h.gone hstill rfl rfl rfl rfl
  | @spawn outcome hpc =>
    rw [ha.2 outcome rfl]
    exact h.spawn

end Tracks

/-- Where it is switched off, `maintain()` does nothing. -/
theorem not_rebuilds_of_off {set : Settings} {s : System} (hidle : s.pc = .idle)
    (hoff : (set.cleanSession && !set.recreate.isZero) = false) : ¬ s.Rebuilds set := by
  rintro ⟨t, ht, hpc⟩
  cases moved_of_step ht with
  | maintain _ hon => simp [hon] at hoff
  | maintainOff => simp [hidle] at hpc

end System

/-- **The outage clock.**  In every run with a clock that does not go back, once a worker has been
started: the flag is set exactly if the last connection event of the current worker is a `ConnAck`;
while it is not, `disconnected_for()` is the time since the last start or the last loss of a
connection, whichever is later; and `maintain()` rebuilds exactly if the session is clean, a
threshold is set, and the outage has lasted that long.  No worker runs when the next one is spawned.
-/
theorem outage_clock (set : Settings) (now : Duration) (s : System) (log : List ConnEvent)
    (h : Reach (logged (System.step set) System.connEvents) (fun p => Smooth p.1)
      (System.init set now, []) (s, log)) :
    (log ≠ [] → s.pc.settled = true →
      (s.connected = true ↔ (current log).head? = some .connAck) ∧
      outageStart log ≤ s.now ∧
      s.disconnectedFor = (if s.connected then .zero else s.now.saturatingSub (outageStart log)) ∧
      (s.pc = .idle → (s.Rebuilds set ↔
        set.cleanSession = true ∧ set.recreate.isZero = false ∧ s.connected = false ∧
          set.recreate ≤ s.now.saturatingSub (outageStart log)))) ∧
    (s.pc = .spawning → s.running = false) := by
  have hsmooth : ∀ (p : System × List ConnEvent) a, Smooth p.1 a → Undisturbed p.1 a :=
    fun _ _ hc => hc.1
  have hinv : ∀ t, Reach (System.step set) Undisturbed (System.init set now) t → t.Inv :=
    fun _ ht => System.inv_of_reach (fun _ _ hc => hc.1) ht
  have htracks : s.Tracks log := h.logged_invariant (I := System.Tracks) hsmooth
    (System.tracks_init set now) fun t log a t' hr hi hc hs => hi.step (hinv t hr) hc hs
  have hreach := hinv s (h.of_logged hsmooth)
  refine ⟨fun hne hset => ?_, hreach.joined⟩
  obtain ⟨hrun, -⟩ := htracks.active hset hne
  have hflag := htracks.flag hrun
  have hfor : s.disconnectedFor =
      if s.connected then .zero else s.now.saturatingSub (outageStart log) := by
    rw [System.disconnectedFor, htracks.since hne]
  refine ⟨by rw [hflag, up_iff], htracks.past, hfor, fun hidle => ?_⟩
  cases hon : set.cleanSession && !set.recreate.isZero with
  | false =>
    refine ⟨fun hreb => absurd hreb (System.not_rebuilds_of_off hidle hon), fun hall => ?_⟩
    simp [hall.1, hall.2.1] at hon
  | true =>
    obtain ⟨hclean, hrec⟩ : set.cleanSession = true ∧ set.recreate.isZero = false := by
      simpa using hon
    rw [System.rebuilds_iff hclean hrec hidle]
    have hworker := hreach.running_worker hrun hset
    cases hconn : s.connected with
    | true => simp
    | false => simp [hclean, hrec, htracks.sound, hworker, hfor, hconn]

/-- A connection that is lost at 5 s and not found again: 900 s later the client is rebuilt. -/
theorem outage_clock_lost : ∃ s : System,
    s.disconnectedFor = .fromSecs 900 ∧ s.Rebuilds .defaults := by
  have hrun : (execWhile (logged (System.step .defaults) System.connEvents) (fun p => Smooth p.1)
      (.init .defaults .zero, [])
      [.start, .signal, .spawn .ok, .worker (.connAck [] true), .advance (.fromSecs 5),
        .worker (.err (.fromSecs 5)), .worker .wake, .advance (.fromSecs 600),
        .worker (.err (.fromSecs 600)), .worker .wake, .advance (.fromSecs 905)]).isSome := by decide
  obtain ⟨hsettled, -⟩ := outage_clock .defaults .zero _ _ (Reach.of_isSome hrun)
  obtain ⟨-, -, hfor, hrebuilds⟩ := hsettled (by decide +revert) rfl
  exact ⟨_, hfor.trans (by decide +revert), (hrebuilds rfl).2 (by decide +revert)⟩

end Mqtt
end SystemReport
