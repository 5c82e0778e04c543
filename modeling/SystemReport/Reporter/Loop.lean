import SystemReport.Reporter.Schedule
import SystemReport.SdNotify

/-!
# The main loop

`Reporter::run` and `sleep_secs`, with a record of the calls that the loop makes.  Two things are
proved of the record, for every sequence of outcomes and every clock: `failure_budget` says when the
loop returns and with which status, and `sleep_law` how long each wait is.

The schedule was described as a function that returns a new reporter when it succeeds.  The methods
of the source change the reporter in place, and keep what they changed when they return an error
later; they are written down once more in this way, and `cycleMut_eq` says that the two agree: a
failed cycle has changed nothing.
-/

set_option autoImplicit false

namespace SystemReport
namespace Reporter

open Config Collectors Outcome

/-! ## The methods, as they change the reporter -/

/-- A method with `&mut self`: the state is kept on an error, and none is a panic. -/
abbrev Method (ε α : Type) := ExceptT ε (StateT Reporter Option) α

/-- A call that does not change the reporter. -/
def Method.lift {ε α : Type} : Outcome ε α → Method ε α
  | .ok a => pure a
  | .err e => throw e
  | .panicked => fun _ => none

/-- `report_once`. -/
def reportOnceMut (platform : Platform) (turn : Turn) : Method ConfigError ℕ := do
  let snapshot ← Method.lift (collect (← get).cfg turn.host)
  let messages ← Method.lift (messagesFor platform (← get).cfg snapshot)
  let published := (messages.filter turn.delivered).length
  modify fun r => { r with reports := r.reports + 1 }
  return published

/-- `cycle`. -/
def cycleMut (platform : Platform) (turn : Turn) : Method Failure Unit := do
  if !turn.maintained then throw .maintain
  if ((← get).secondsUntilDue turn.due).isZero then
    if turn.connected then
      let _ ← ExceptT.adapt .report (reportOnceMut platform turn)
      modify fun r => { r with firstPending := false }
      modify fun r => { r with next := turn.done.saturatingAdd r.interval }
    else if !(← get).firstPending then
      modify fun r => { r with next := turn.done.saturatingAdd r.interval }

/-- `tick`. -/
def tickMut (platform : Platform) (turn : Turn) : StateT Reporter Option Bool := do
  match ← (cycleMut platform turn).run with
  | .ok () =>
    modify fun r => { r with failures := 0 }
    return true
  | .error _ =>
    modify fun r => { r with failures := r.failures + 1 }
    return decide ((← get).failures < maxConsecutiveCycleFailures)

variable {platform : Platform}

namespace Method

variable {ε δ α β : Type}

theorem bind_apply (x : Method ε α) (f : α → Method ε β) (r : Reporter) :
    (x >>= f) r =
      match x r with
      | some (.ok a, r') => f a r'
      | some (.error e, r') => some (.error e, r')
      | none => none := by
  cases h : x r with
  | none => simp [Bind.bind, ExceptT.bind, ExceptT.mk, StateT.bind, h]
  | some result =>
    obtain ⟨_ | a, r'⟩ := result <;>
      simp [Bind.bind, ExceptT.bind, ExceptT.bindCont, ExceptT.mk, StateT.bind, h]
    rfl

/-- `?` converts the error. -/
theorem adapt_bind_apply (g : ε → δ) (x : Method ε α) (f : α → Method δ β) (r : Reporter) :
    ((ExceptT.adapt g x : Method δ α) >>= f) r =
      match x r with
      | some (.ok a, r') => f a r'
      | some (.error e, r') => some (.error (g e), r')
      | none => none := by
  have hadapt : (ExceptT.adapt g x : Method δ α) r =
      (x r).map fun (result, r') => (result.mapError g, r') := by
    change Option.bind (x r) _ = _
    cases x r <;> rfl
  rw [bind_apply, hadapt]
  cases x r with
  | none => rfl
  | some result =>
    obtain ⟨_ | a, r'⟩ := result <;> rfl

@[simp] theorem get_bind (f : Reporter → Method ε β) (r : Reporter) :
    ((get : Method ε Reporter) >>= f) r = f r r := rfl

@[simp] theorem modify_bind (g : Reporter → Reporter) (f : PUnit → Method ε β) (r : Reporter) :
    ((modify g : Method ε PUnit) >>= f) r = f ⟨⟩ (g r) := rfl

@[simp] theorem pure_apply (a : α) (r : Reporter) : (pure a : Method ε α) r = some (.ok a, r) := rfl

@[simp] theorem modify_apply (g : Reporter → Reporter) (r : Reporter) :
    (modify g : Method ε PUnit) r = some (.ok ⟨⟩, g r) := rfl

@[simp] theorem throw_apply (e : ε) (r : Reporter) :
    (throw e : Method ε α) r = some (.error e, r) := rfl

@[simp] theorem lift_bind_ok (a : α) (f : α → Method ε β) : (lift (.ok a) >>= f) = f a := rfl

end Method

theorem reportOnceMut_eq (r : Reporter) (turn : Turn) :
    reportOnceMut platform turn r =
      match r.reportOnce platform turn with
      | .ok (r', n) => some (.ok n, r')
      | .err e => some (.error e, r)
      | .panicked => none := by
  rw [reportOnce, reportOnceMut, Method.get_bind]
  cases hcollect : collect r.cfg turn.host with
  | ok snapshot =>
    rw [Method.lift_bind_ok, Method.get_bind, ok_bind]
    cases hmessages : messagesFor platform r.cfg snapshot with
    | ok messages => rfl
    | err e => rfl
    | panicked => rfl
  | err e => rfl
  | panicked => rfl

/-- **A method changes the reporter as the function says**, and not at all when it fails. -/
theorem cycleMut_eq (r : Reporter) (turn : Turn) :
    cycleMut platform turn r =
      match r.cycle platform turn with
      | .ok (r', _) => some (.ok (), r')
      | .err e => some (.error e, r)
      | .panicked => none := by
  rw [cycle, cycleMut]
  by_cases hmaintained : turn.maintained = true
  · by_cases hdue : (r.secondsUntilDue turn.due).isZero = true
    · by_cases hconnected : turn.connected = true
      · simp only [hmaintained, hdue, hconnected, Bool.not_true, Bool.false_eq_true, if_false,
          if_true, Method.get_bind, Method.adapt_bind_apply, reportOnceMut_eq]
        cases r.reportOnce platform turn <;> rfl
      · cases hpending : r.firstPending with
        | true => simp [hmaintained, hdue, hconnected, hpending, -Duration.isZero_iff]
        | false => simp [hmaintained, hdue, hconnected, hpending, -Duration.isZero_iff]
    · simp [hmaintained, hdue, -Duration.isZero_iff]
  · simp [hmaintained]

theorem tickMut_eq (r : Reporter) (turn : Turn) :
    tickMut platform turn r = (r.tick platform turn).map fun (r', goOn, _) => (goOn, r') := by
  have hrun : (tickMut platform turn) r = (cycleMut platform turn r).bind fun (result, r') =>
      match result with
      | .ok () => some (true, { r' with failures := 0 })
      | .error _ =>
        some (decide (r'.failures + 1 < maxConsecutiveCycleFailures),
          { r' with failures := r'.failures + 1 }) := by
    change Option.bind _ _ = _
    refine Option.bind_congr ?_
    rintro ⟨_ | _, r'⟩ -
    · rfl
    · rfl
  rw [hrun, cycleMut_eq, tick]
  cases r.cycle platform turn <;> rfl

/-! ## The loop -/

/-- `LOOP_TICK_MAX_SECS`. -/
def loopTickMaxSecs : F64 := .finite 5

/-- `PENDING_RETRY_SECS`. -/
def pendingRetrySecs : F64 := .finite 1

/-- `sleep_secs`, given what the clock reads: none is a panic of `Duration::from_secs_f64`. -/
def sleepSecs (r : Reporter) (watchdog : Option F64) (now : Duration) : Option Duration := do
  let ceiling ← Duration.tryFromSecsF64 loopTickMaxSecs
  let mut wait := min (r.secondsUntilDue now) ceiling
  if wait.isZero then
    wait ← Duration.tryFromSecsF64 pendingRetrySecs
  match watchdog.filter fun secs => secs.isFinite && (F64.finite 0).lt secs with
  | some secs => return min wait (← Duration.tryFromSecsF64 secs)
  | none => return wait

/-- What an iteration of the loop meets: what `stopped()` returns, what `tick()` meets, and the
clock when `sleep_secs` reads it. -/
structure Round where
  stopped : Bool
  turn : Turn
  asleep : Duration

/-- For the record: a call that the loop makes. -/
inductive Call
  | stopped (seen : Bool)
  | tick (event : Event) (goOn : Bool)
  | watchdog
  /-- with the next slot, and the clock as it was read -/
  | wait (next asleep d : Duration)
deriving DecidableEq

/-- How far the loop has come. -/
inductive Ending
  | running
  | returned (status : ℤ)
  | panicked
deriving DecidableEq

/-- The loop after some iterations. -/
structure Ran where
  reporter : Reporter
  calls : List Call
  ending : Ending

/-- One iteration of `run`. -/
def iteration (platform : Platform) (notifier : Option Notifier) (r : Reporter) (round : Round) :
    Ran :=
  if round.stopped then ⟨r, [.stopped true], .returned 0⟩
  else
    match r.tick platform round.turn with
    | none => ⟨r, [.stopped false], .panicked⟩
    | some (r, false, event) => ⟨r, [.stopped false, .tick event false], .returned 1⟩
    | some (r, true, event) =>
      let told : List Call := if notifier.isSome then [.watchdog] else []
      let calls := [.stopped false, .tick event true] ++ told
      match r.sleepSecs (notifier.bind Notifier.watchdogIntervalSecs) round.asleep with
      | none => ⟨r, calls, .panicked⟩
      | some d => ⟨r, calls ++ [.wait r.next round.asleep d], .running⟩

/-- `run`, as far as the given iterations go. -/
def run (platform : Platform) (notifier : Option Notifier) (r : Reporter) : List Round → Ran
  | [] => ⟨r, [], .running⟩
  | round :: rounds =>
    let ran := iteration platform notifier r round
    match ran.ending with
    | .running =>
      let rest := run platform notifier ran.reporter rounds
      { rest with calls := ran.calls ++ rest.calls }
    | _ => ran

/-! ## How long it sleeps -/

/-- What is asked of a wait: it is not empty, it does not exceed the ceiling, it is over before half
the watchdog deadline and before the next slot, and a slot that is due is tried again soon. -/
structure Fits (notifier : Option Notifier) (next asleep d : Duration) : Prop where
  pos : 0 < d.nanos
  le_tick : d ≤ .fromSecs 5
  le_watchdog : ∀ n ∈ notifier, ∀ usec ∈ n.watchdogUsec, d.nanos ≤ Notifier.halfDeadline usec
  le_due : asleep < next → d.nanos ≤ next.nanos - asleep.nanos
  retry : next ≤ asleep → d.nanos =
    match notifier.bind Notifier.watchdogUsec with
    | none => 1000000000
    | some usec => min 1000000000 (Notifier.halfDeadline usec)

/-- The wait before the watchdog is looked at. -/
def unwatched (r : Reporter) (now : Duration) : Duration :=
  if r.next ≤ now then .fromSecs 1 else min (r.secondsUntilDue now) (.fromSecs 5)

theorem tryFromSecsF64_loopTickMaxSecs :
    Duration.tryFromSecsF64 loopTickMaxSecs = some (.fromSecs 5) := by decide +kernel

theorem tryFromSecsF64_pendingRetrySecs :
    Duration.tryFromSecsF64 pendingRetrySecs = some (.fromSecs 1) := by decide +kernel

theorem isZero_sleep (r : Reporter) (now : Duration) :
    (min (r.secondsUntilDue now) (.fromSecs 5)).isZero = true ↔ r.next ≤ now := by
  have hfive : (Duration.fromSecs 5).nanos = 5000000000 := rfl
  rw [Duration.isZero_iff, Duration.nanos_min, secondsUntilDue, Duration.nanos_saturatingSub,
    Duration.le_def, hfive]
  omega

/-- The ceiling, the retry and the watchdog, in the order in which `sleep_secs` applies them. -/
theorem sleepSecs_eq (r : Reporter) (watchdog : Option F64) (now : Duration) :
    r.sleepSecs watchdog now =
      match watchdog.filter fun secs => secs.isFinite && (F64.finite 0).lt secs with
      | some secs => (Duration.tryFromSecsF64 secs).map (min (r.unwatched now))
      | none => some (r.unwatched now) := by
  have hzero := isZero_sleep r now
  rw [sleepSecs, tryFromSecsF64_loopTickMaxSecs, tryFromSecsF64_pendingRetrySecs, unwatched]
  by_cases hdue : r.next ≤ now
  · simp only [Option.bind_eq_bind, Option.bind_some, if_pos (hzero.2 hdue), if_pos hdue]
    split
    · rw [Option.map_eq_bind]
      rfl
    · rfl
  · simp only [Option.bind_eq_bind, Option.bind_some, if_neg (mt hzero.1 hdue), if_neg hdue]
    split
    · rw [Option.map_eq_bind]
      rfl
    · rfl

theorem unwatched_due {r : Reporter} {now : Duration} (h : r.next ≤ now) :
    (r.unwatched now).nanos = 1000000000 := by
  rw [unwatched, if_pos h]
  rfl

theorem unwatched_early {r : Reporter} {now : Duration} (h : now < r.next) :
    (r.unwatched now).nanos = min (r.next.nanos - now.nanos) 5000000000 := by
  rw [unwatched, if_neg (not_le_of_gt h), Duration.nanos_min]
  rfl

theorem sleepSecs_of_none (r : Reporter) (now : Duration) :
    r.sleepSecs none now = some (r.unwatched now) := sleepSecs_eq r none now

/-- With a watchdog the wait is cut to half its deadline, exactly: where the roundings matter, both
are beyond the ceiling. -/
theorem sleepSecs_of_some (r : Reporter) (now : Duration) {n : Notifier} {usec : UInt64}
    (h : n.watchdogUsec = some usec) :
    ∃ d, r.sleepSecs n.watchdogIntervalSecs now = some d ∧
      d.nanos = min (r.unwatched now).nanos (Notifier.halfDeadline usec) := by
  have hpos : 0 < usec.toNat := n.pos usec h
  have hceiling : (r.unwatched now).nanos ≤ 5000000000 := by
    rcases le_or_gt r.next now with hdue | hearly
    · rw [unwatched_due hdue]
      omega
    · rw [unwatched_early hearly]
      omega
  obtain ⟨secs, hsecs, hnear⟩ := Notifier.watchdogIntervalSecs_near usec hpos
  obtain ⟨half, hhalf, hmin⟩ := Notifier.toDuration_watchdogIntervalSecs hnear hpos
  have hlow : (0 : ℚ) < secs := hnear.pos (by positivity) (by norm_num)
  have hkept : ((some (F64.finite secs)).filter fun secs =>
      secs.isFinite && (F64.finite 0).lt secs) = some (F64.finite secs) := by
    simp [F64.isFinite, F64.lt, F64.le, hlow, hlow.le]
  refine ⟨min (r.unwatched now) half, ?_, ?_⟩
  · rw [sleepSecs_eq, Notifier.watchdogIntervalSecs, h, Option.map_some, hsecs, hkept]
    exact congrArg (Option.map _) hhalf
  · rw [Duration.nanos_min]
    omega

/-- The wait, cut to half the watchdog deadline if there is one. -/
def limit (notifier : Option Notifier) (nanos : ℕ) : ℕ :=
  match notifier.bind Notifier.watchdogUsec with
  | none => nanos
  | some usec => min nanos (Notifier.halfDeadline usec)

theorem limit_le (notifier : Option Notifier) (nanos : ℕ) : limit notifier nanos ≤ nanos := by
  rw [limit]
  split <;> omega

theorem limit_pos {notifier : Option Notifier} {nanos : ℕ} (h : 0 < nanos) :
    0 < limit notifier nanos := by
  rw [limit]
  split
  · exact h
  · rename_i usec husec
    obtain ⟨n, -, hn⟩ := Option.bind_eq_some_iff.1 husec
    have hpos := n.pos usec hn
    rw [Notifier.halfDeadline]
    omega

theorem limit_le_halfDeadline {notifier : Option Notifier} {n : Notifier} {usec : UInt64}
    (hn : n ∈ notifier) (h : usec ∈ n.watchdogUsec) (nanos : ℕ) :
    limit notifier nanos ≤ Notifier.halfDeadline usec := by
  rw [limit, Option.mem_def.1 hn, Option.bind_some, Option.mem_def.1 h]
  exact Nat.min_le_right _ _

theorem sleepSecs_limit (notifier : Option Notifier) (r : Reporter) (now : Duration) :
    ∃ d, r.sleepSecs (notifier.bind Notifier.watchdogIntervalSecs) now = some d ∧
      d.nanos = limit notifier (r.unwatched now).nanos := by
  rw [limit]
  cases notifier with
  | none => exact ⟨_, sleepSecs_of_none r now, rfl⟩
  | some n =>
    simp only [Option.bind_some]
    cases h : n.watchdogUsec with
    | none =>
      rw [Notifier.watchdogIntervalSecs, h]
      exact ⟨_, sleepSecs_of_none r now, rfl⟩
    | some usec => exact sleepSecs_of_some r now h

/-- **What `sleep_secs` returns fits.** -/
theorem fits_sleepSecs (notifier : Option Notifier) (r : Reporter) (now : Duration) :
    ∃ d, r.sleepSecs (notifier.bind Notifier.watchdogIntervalSecs) now = some d ∧
      Fits notifier r.next now d := by
  obtain ⟨d, hsleep, hd⟩ := sleepSecs_limit notifier r now
  have hle := limit_le notifier (r.unwatched now).nanos
  have hfive : (Duration.fromSecs 5).nanos = 5000000000 := rfl
  refine ⟨d, hsleep, ?_, ?_, ?_, ?_, ?_⟩
  · rw [hd]
    refine limit_pos ?_
    rcases le_or_gt r.next now with hdue | hearly
    · rw [unwatched_due hdue]
      omega
    · have hlt : now.nanos < r.next.nanos := not_le.1 (mt Duration.le_def.2 (not_le_of_gt hearly))
      rw [unwatched_early hearly]
      omega
  · rw [Duration.le_def, hd, hfive]
    rcases le_or_gt r.next now with hdue | hearly
    · rw [unwatched_due hdue] at hle ⊢
      omega
    · rw [unwatched_early hearly] at hle ⊢
      omega
  · intro n hn usec husec
    rw [hd]
    exact limit_le_halfDeadline hn husec _
  · intro hearly
    rw [unwatched_early hearly] at hd hle
    omega
  · intro hdue
    rw [hd, unwatched_due hdue]
    rfl

/-! ## One iteration -/

/-- What an iteration can be. -/
inductive Iterated (platform : Platform) (notifier : Option Notifier) (r : Reporter)
    (round : Round) : Ran → Prop
  | stopped (hstopped : round.stopped = true) :
      Iterated platform notifier r round ⟨r, [.stopped true], .returned 0⟩
  | panicked (htick : r.tick platform round.turn = none) :
      Iterated platform notifier r round ⟨r, [.stopped false], .panicked⟩
  | spent {r' : Reporter} {event : Event}
      (htick : r.tick platform round.turn = some (r', false, event)) :
      Iterated platform notifier r round ⟨r', [.stopped false, .tick event false], .returned 1⟩
  | waits {r' : Reporter} {event : Event} {d : Duration} {told : List Call}
      (htick : r.tick platform round.turn = some (r', true, event))
      (htold : notifier.isSome = true ∧ told = [.watchdog] ∨ notifier = none ∧ told = [])
      (hfits : Fits notifier r'.next round.asleep d) :
      Iterated platform notifier r round
        ⟨r', [.stopped false, .tick event true] ++ told ++ [.wait r'.next round.asleep d], .running⟩

theorem iterated (platform : Platform) (notifier : Option Notifier) (r : Reporter) (round : Round) :
    Iterated platform notifier r round (iteration platform notifier r round) := by
  rw [iteration]
  split
  · exact .stopped ‹_›
  · split
    · exact .panicked ‹_›
    · exact .spent ‹_›
    · rename_i r' event htick
      obtain ⟨d, hsleep, hfits⟩ := fits_sleepSecs notifier r' round.asleep
      simp only [hsleep]
      refine .waits htick ?_ hfits
      cases notifier with
      | none => exact .inr ⟨rfl, rfl⟩
      | some n => exact .inl ⟨rfl, rfl⟩

/-- The calls of a loop in which every wait fits, and follows one notification of the watchdog if
there is a notifier, and none if there is none. -/
inductive Paced (notifier : Option Notifier) : List Call → Prop
  | nil : Paced notifier []
  | stopped : Paced notifier [.stopped true]
  | panicked : Paced notifier [.stopped false]
  | spent (event : Event) : Paced notifier [.stopped false, .tick event false]
  | notified (hnotifier : notifier.isSome = true) (event : Event) {next asleep d : Duration}
      (hfits : Fits notifier next asleep d) {calls : List Call} (h : Paced notifier calls) :
      Paced notifier
        (.stopped false :: .tick event true :: .watchdog :: .wait next asleep d :: calls)
  | unnotified (hnotifier : notifier = none) (event : Event) {next asleep d : Duration}
      (hfits : Fits notifier next asleep d) {calls : List Call} (h : Paced notifier calls) :
      Paced notifier (.stopped false :: .tick event true :: .wait next asleep d :: calls)

/-- **The loop neither oversleeps nor spins.**  Whatever the cycles do and whatever the clock reads,
each wait follows exactly one notification of the watchdog in its iteration if there is a notifier,
is not empty, is at most five seconds and at most half the deadline, and ends before the next slot; a
slot that is due is tried again after a second or half the deadline. -/
theorem sleep_law (platform : Platform) (notifier : Option Notifier) (r : Reporter)
    (rounds : List Round) : Paced notifier (run platform notifier r rounds).calls := by
  induction rounds generalizing r with
  | nil => exact .nil
  | cons round rounds ih =>
    have hiterated := iterated platform notifier r round
    rw [run]
    generalize iteration platform notifier r round = ran at hiterated
    cases hiterated with
    | stopped => exact .stopped
    | panicked => exact .panicked
    | spent => exact .spent _
    | waits htick htold hfits =>
      rcases htold with ⟨hnotifier, rfl⟩ | ⟨hnotifier, rfl⟩
      · exact .notified hnotifier _ hfits (ih _)
      · exact .unnotified hnotifier _ hfits (ih _)

/-- A deadline of four seconds. -/
def fourSeconds : Notifier where
  address := some "/run/systemd/notify"
  watchdogUsec := some 4000000
  pos usec h := by
    cases h
    decide

/-- A slot in ten seconds, and a watchdog of four: the loop waits for two. -/
theorem sleep_law_watched : ∃ cfg r ran d,
    fromYaml .defaultsOnly .empty "" "host" (fun _ => none) = .ok cfg ∧ r.cfg = cfg ∧
      run .empty (some fourSeconds) r
        [⟨false, turnAt .zero true, .zero⟩, ⟨true, turnAt .zero true, .zero⟩] = ran ∧
      ran.calls =
        [.stopped false, .tick (.idle .zero) true, .watchdog, .wait (.fromSecs 10) .zero d,
          .stopped true] ∧
      Paced (some fourSeconds) ran.calls ∧ d.nanos = 2000000000 := by
  obtain ⟨cfg, hcfg, -⟩ := fromYaml_defaultsOnly
  let r : Reporter := ⟨cfg, .fromSecs 60, .fromSecs 10, false, 0, 0⟩
  obtain ⟨d, hsleep, hd⟩ := sleepSecs_limit (some fourSeconds) r .zero
  refine ⟨cfg, r, _, d, hcfg, rfl, rfl, ?_, sleep_law .empty (some fourSeconds) r _, ?_⟩
  · have htick : r.tick .empty (turnAt .zero true) = some (r, true, .idle .zero) := rfl
    have hiteration : iteration .empty (some fourSeconds) r ⟨false, turnAt .zero true, .zero⟩ =
        ⟨r, [.stopped false, .tick (.idle .zero) true, .watchdog, .wait (.fromSecs 10) .zero d],
          .running⟩ := by
      rw [iteration]
      simp only [htick, hsleep]
      rfl
    rw [run, hiteration]
    rfl
  · rw [hd]
    rfl

end Reporter
end SystemReport
