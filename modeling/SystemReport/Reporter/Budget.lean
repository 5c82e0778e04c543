import SystemReport.Reporter.Loop

/-!
# The failure budget

When `Reporter::run` returns, and with which status.  The loop keeps no history: it counts failures
in a `u32`, and resets it.  `Budget` says what the record of its calls looks like in terms of all
cycles so far, those before the loop included; `failure_budget` shows it of every loop.
-/

set_option autoImplicit false

namespace SystemReport
namespace Reporter

open Config

/-! ## Counting failures -/

/-- How many cycles have failed since the last one that succeeded. -/
def streak (cycles : List Bool) : ℕ := (cycles.reverse.takeWhile fun ok => !ok).length

@[simp] theorem streak_nil : streak [] = 0 := rfl

@[simp] theorem streak_append_ok (cycles : List Bool) : streak (cycles ++ [true]) = 0 := by
  simp [streak]

@[simp] theorem streak_append_failed (cycles : List Bool) :
    streak (cycles ++ [false]) = streak cycles + 1 := by
  simp [streak]

/-- The outcome of a cycle. -/
def Call.cycle : Call → Option Bool
  | .tick event _ => some (decide (event ≠ .failed))
  | _ => none

/-- The outcomes of the cycles among the calls. -/
def cycles (calls : List Call) : List Bool := calls.filterMap Call.cycle

@[simp] theorem cycles_nil : cycles [] = [] := rfl

@[simp] theorem cycles_stopped (seen : Bool) (calls : List Call) :
    cycles (.stopped seen :: calls) = cycles calls := rfl

@[simp] theorem cycles_tick (event : Event) (goOn : Bool) (calls : List Call) :
    cycles (.tick event goOn :: calls) = decide (event ≠ .failed) :: cycles calls := rfl

@[simp] theorem cycles_wait (next asleep d : Duration) (calls : List Call) :
    cycles (.wait next asleep d :: calls) = cycles calls := rfl

@[simp] theorem cycles_append (calls more : List Call) :
    cycles (calls ++ more) = cycles calls ++ cycles more :=
  List.filterMap_append

@[simp] theorem cycles_watchdog (calls : List Call) : cycles (.watchdog :: calls) = cycles calls :=
  rfl

/-- The last cycle of the calls is one too many in a row, with the cycles before the calls
counted. -/
def Spent (past : List Bool) (calls : List Call) : Prop :=
  cycles calls ≠ [] ∧ maxConsecutiveCycleFailures.toNat ≤ streak (past ++ cycles calls)

/-- Nothing among the calls ends the loop. -/
def GoesOn (past : List Bool) (calls : List Call) : Prop :=
  Call.stopped true ∉ calls ∧ ¬ Spent past calls

/-- When the loop ends: with 0 when it sees that it is to stop, with 1 at the cycle that is one
failure too many, and with no call after that. -/
structure Budget (past : List Bool) (rounds : List Round) (ran : Ran) : Prop where
  goesOn : ∀ calls, calls <+: ran.calls → calls ≠ ran.calls → GoesOn past calls
  stopped : ran.ending = .returned 0 ↔ .stopped true ∈ ran.calls
  spent : ran.ending = .returned 1 ↔ .stopped true ∉ ran.calls ∧ Spent past ran.calls
  status : ∀ status, ran.ending = .returned status → status = 0 ∨ status = 1
  counted : ran.reporter.failures.toNat = streak (past ++ cycles ran.calls)
  /-- otherwise there was a cycle in every iteration -/
  running : ran.ending = .running → (cycles ran.calls).length = rounds.length

variable {platform : Platform} {notifier : Option Notifier} {r r' : Reporter} {turn : Turn}
  {goOn : Bool} {event : Event} {past : List Bool}

/-! ## A call of `tick` -/

/-- A cycle that succeeds is on record as something else than a failure. -/
theorem event_ne_failed (h : r.cycle platform turn = .ok (r', event)) : event ≠ .failed := by
  rintro rfl
  rw [cycle] at h
  split_ifs at h
  · split at h <;> cases h
  all_goals cases h

/-- **What `tick` counts.**  A success starts again at zero, and a failure changes the count and
nothing else. -/
theorem counted_of_tick (h : r.tick platform turn = some (r', goOn, event)) :
    (event ≠ .failed ∧ goOn = true ∧ r'.failures = 0) ∨
      (event = .failed ∧ r' = { r with failures := r.failures + 1 } ∧
        goOn = decide (r.failures + 1 < maxConsecutiveCycleFailures)) := by
  rw [tick] at h
  cases hcycle : r.cycle platform turn with
  | ok result =>
    rw [hcycle] at h
    cases h
    exact .inl ⟨event_ne_failed hcycle, rfl, rfl⟩
  | err e =>
    rw [hcycle] at h
    cases h
    exact .inr ⟨rfl, rfl, rfl⟩
  | panicked =>
    rw [hcycle] at h
    cases h

/-- The same with the failures so far. -/
theorem streak_of_tick (hpast : r.failures.toNat = streak past) (hbound : streak past + 1 < 2 ^ 32)
    (h : r.tick platform turn = some (r', goOn, event)) :
    r'.failures.toNat = streak (past ++ [decide (event ≠ .failed)]) ∧
      (goOn = true ↔
        streak (past ++ [decide (event ≠ .failed)]) < maxConsecutiveCycleFailures.toNat) := by
  have hmax : maxConsecutiveCycleFailures.toNat = 5 := rfl
  rcases counted_of_tick h with ⟨hevent, rfl, hfailures⟩ | ⟨rfl, rfl, rfl⟩
  · simp [hevent, hfailures, hmax]
  · have hcount : (r.failures + 1).toNat = streak past + 1 := by
      rw [UInt32.toNat_add, hpast]
      exact Nat.mod_eq_of_lt hbound
    simp [hcount, hmax, UInt32.lt_iff_toNat_lt]

/-! ## The loop -/

/-- Calls that go on with a cycle that leaves failures to spare go on from there. -/
theorem spent_append {calls : List Call}
    (h : streak (past ++ cycles calls) < maxConsecutiveCycleFailures.toNat) (more : List Call) :
    Spent past (calls ++ more) ↔ Spent (past ++ cycles calls) more := by
  rw [Spent, Spent, cycles_append, ← List.append_assoc]
  constructor
  · rintro ⟨-, hspent⟩
    refine ⟨fun hnil => ?_, hspent⟩
    rw [hnil, List.append_nil] at hspent
    omega
  · rintro ⟨hne, hspent⟩
    exact ⟨List.append_ne_nil_of_right_ne_nil _ hne, hspent⟩

/-- With one cycle among the calls, the calls before their end go on. -/
theorem goesOn_of_prefix {calls start : List Call} {ok : Bool} (hcycles : cycles calls = [ok])
    (hstopped : Call.stopped true ∉ calls)
    (h : streak (past ++ [ok]) < maxConsecutiveCycleFailures.toNat) (hstart : start <+: calls) :
    GoesOn past start := by
  obtain ⟨rest, rfl⟩ := hstart
  refine ⟨fun hmem => hstopped (List.mem_append_left _ hmem), ?_⟩
  rintro ⟨hne, hspent⟩
  rw [cycles_append, List.append_eq_singleton_iff] at hcycles
  rcases hcycles with ⟨hnil, -⟩ | ⟨hone, -⟩
  · exact hne hnil
  · rw [hone] at hspent
    omega

/-- Without a cycle among the calls, they go on up to the last one. -/
theorem goesOn_of_last {calls start : List Call} {call : Call} (hcycles : cycles calls = [])
    (hstopped : Call.stopped true ∉ calls) (hstart : start <+: calls ++ [call])
    (hne : start ≠ calls ++ [call]) : GoesOn past start := by
  obtain ⟨rest, rfl⟩ := (List.prefix_concat_iff.1 hstart).resolve_left hne
  rw [cycles_append, List.append_eq_nil_iff] at hcycles
  exact ⟨fun hmem => hstopped (List.mem_append_left _ hmem), fun hspent => hspent.1 hcycles.1⟩

/-- **One more iteration in front.** -/
theorem Budget.cons {calls : List Call} {ok : Bool} {rounds : List Round} {round : Round} {ran : Ran}
    (hcycles : cycles calls = [ok]) (hstopped : Call.stopped true ∉ calls)
    (h : streak (past ++ [ok]) < maxConsecutiveCycleFailures.toNat)
    (hrest : Budget (past ++ [ok]) rounds ran) :
    Budget past (round :: rounds) { ran with calls := calls ++ ran.calls } := by
  rw [← hcycles] at h hrest
  have hspent := spent_append h
  have hmem : Call.stopped true ∈ calls ++ ran.calls ↔ Call.stopped true ∈ ran.calls := by
    simp [hstopped]
  refine ⟨fun start hstart hne => ?_, ?_, ?_, hrest.status, ?_, fun hrunning => ?_⟩
  · rcases List.prefix_or_prefix_of_prefix hstart (List.prefix_append calls ran.calls) with
      hshort | ⟨more, rfl⟩
    · rw [hcycles] at h
      exact goesOn_of_prefix hcycles hstopped h hshort
    · have hmore := (List.prefix_append_right_inj calls).1 hstart
      obtain ⟨hrunning, hleft⟩ := hrest.goesOn more hmore fun heq => hne (by rw [heq])
      refine ⟨?_, fun hmany => hleft ((hspent more).1 hmany)⟩
      rw [List.mem_append]
      exact not_or.2 ⟨hstopped, hrunning⟩
  · rw [hmem]
    exact hrest.stopped
  · rw [hmem, hspent]
    exact hrest.spent
  · rw [cycles_append, ← List.append_assoc]
    exact hrest.counted
  · rw [cycles_append, List.length_append, hrest.running hrunning, hcycles]
    exact Nat.add_comm _ _

/-- **Every loop keeps to the budget.** -/
theorem budget_of_run (hbound : streak past + 1 < 2 ^ 32) (hpast : r.failures.toNat = streak past)
    (rounds : List Round) : Budget past rounds (run platform notifier r rounds) := by
  induction rounds generalizing r past with
  | nil =>
    refine ⟨fun calls hcalls hne => absurd (List.prefix_nil.1 hcalls) hne, ?_, ?_, by simp [run], ?_,
      fun _ => rfl⟩
    · simp [run]
    · simp [run, Spent]
    · simpa [run] using hpast
  | cons round rounds ih =>
    have hiterated := iterated platform notifier r round
    rw [run]
    generalize iteration platform notifier r round = ran at hiterated
    cases hiterated with
    | stopped =>
      refine ⟨fun _ => goesOn_of_last cycles_nil List.not_mem_nil, ?_, ?_, ?_, ?_, by simp⟩
      · simp
      · simp
      · rintro _ ⟨⟩
        exact .inl rfl
      · simpa using hpast
    | panicked =>
      refine ⟨fun _ => goesOn_of_last cycles_nil List.not_mem_nil, ?_, ?_, by simp, ?_, by simp⟩
      · simp
      · simp [Spent]
      · simpa using hpast
    | @spent r' event htick =>
      obtain ⟨hcounted, hgoOn⟩ := streak_of_tick hpast hbound htick
      refine ⟨fun _ => @goesOn_of_last past [.stopped false] _ _ rfl (by simp), ?_, ?_, ?_, ?_,
        by simp⟩
      · simp
      · simpa [Spent] using hgoOn
      · rintro _ ⟨⟩
        exact .inr rfl
      · simpa using hcounted
    | @waits r' event d told htick htold hfits =>
      have htold : cycles told = [] ∧ .stopped true ∉ told := by
        rcases htold with ⟨-, rfl⟩ | ⟨-, rfl⟩ <;> simp
      obtain ⟨hcounted, hgoOn⟩ := streak_of_tick hpast hbound htick
      have hleft := hgoOn.1 rfl
      have hmax : maxConsecutiveCycleFailures.toNat = 5 := rfl
      have hrest := ih (by omega) hcounted
      refine Budget.cons ?_ ?_ hleft hrest
      · simp [htold.1]
      · simp [htold.2]

/-- Every cycle directly follows a look at the stop flag that does not see it set. -/
def Asked (calls : List Call) : Prop :=
  ∀ start event goOn rest, calls = start ++ .tick event goOn :: rest →
    ∃ before, start = before ++ [.stopped false]

theorem asked_of_no_cycle {calls : List Call} (h : cycles calls = []) : Asked calls := by
  rintro start event goOn rest rfl
  simp at h

theorem asked_tick (event : Event) (goOn : Bool) : Asked [.stopped false, .tick event goOn] := by
  intro start event' goOn' rest h
  match start, h with
  | [], h => simp at h
  | [call], h =>
    refine ⟨[], ?_⟩
    simp at h
    simp [h]
  | _ :: _ :: _, h => simp at h

theorem Asked.append {calls more : List Call} (h : Asked calls) (hmore : Asked more) :
    Asked (calls ++ more) := by
  intro start event goOn rest heq
  rcases List.append_eq_append_iff.1 heq with ⟨middle, rfl, hright⟩ | ⟨middle, hleft, hright⟩
  · obtain ⟨before, rfl⟩ := hmore _ _ _ _ hright
    exact ⟨calls ++ before, by simp⟩
  · cases middle with
    | nil =>
      -- the calls that follow would begin with a cycle
      obtain ⟨before, hnil⟩ := hmore [] event goOn rest (by simpa using hright.symm)
      simp at hnil
    | cons call middle =>
      obtain ⟨rfl, -⟩ := List.cons.inj hright
      exact h _ _ _ _ hleft

theorem asked_of_run (rounds : List Round) : Asked (run platform notifier r rounds).calls := by
  induction rounds generalizing r with
  | nil => exact asked_of_no_cycle rfl
  | cons round rounds ih =>
    have hiterated := iterated platform notifier r round
    rw [run]
    generalize iteration platform notifier r round = ran at hiterated
    cases hiterated with
    | stopped | panicked => exact asked_of_no_cycle rfl
    | @spent r' event => exact asked_tick event false
    | @waits r' event d told htick htold hfits =>
      have hrest : Asked (told ++ [.wait r'.next round.asleep d]) := by
        refine asked_of_no_cycle ?_
        rcases htold with ⟨-, rfl⟩ | ⟨-, rfl⟩ <;> rfl
      rw [List.append_assoc]
      exact ((asked_tick event true).append hrest).append ih

/-- A loop that has ended makes no more calls. -/
theorem run_append {rounds : List Round}
    (h : (run platform notifier r rounds).ending ≠ .running) (more : List Round) :
    run platform notifier r (rounds ++ more) = run platform notifier r rounds := by
  induction rounds generalizing r with
  | nil => exact absurd rfl h
  | cons round rounds ih =>
    rw [List.cons_append, run, run]
    rw [run] at h
    cases hending : (iteration platform notifier r round).ending with
    | running =>
      simp only [hending] at h ⊢
      rw [ih h]
    | returned status => rfl
    | panicked => rfl

theorem Called.cfg_eq (h : Called r turn r' goOn event) : r'.cfg = r.cfg := by
  cases h <;> rfl

/-- With an accepted configuration the loop does not panic. -/
theorem run_ne_panicked (h : Accepted platform r.cfg) (rounds : List Round) :
    (run platform notifier r rounds).ending ≠ .panicked := by
  induction rounds generalizing r with
  | nil => simp [run]
  | cons round rounds ih =>
    obtain ⟨r', goOn, event, hsome, hcalled⟩ := called_of_accepted h round.turn
    have hiterated := iterated platform notifier r round
    rw [run]
    generalize iteration platform notifier r round = ran at hiterated
    cases hiterated with
    | stopped => simp
    | panicked htick => simp [hsome] at htick
    | spent => simp
    | waits htick htold hfits =>
      rw [hsome] at htick
      cases htick
      exact ih (by rw [hcalled.cfg_eq]; exact h)

/-- **The failure budget.**  Whatever the cycles do and whenever the loop is asked to stop, it
returns 1 at the first cycle that makes five failures in a row, and 0 when it sees before that that
it is to stop, and calls nothing afterwards; and a failed cycle has changed nothing but the count.
-/
theorem failure_budget (platform : Platform) (notifier : Option Notifier) (r : Reporter)
    (past : List Bool) (hpast : r.failures.toNat = streak past) (hbound : streak past + 1 < 2 ^ 32)
    (rounds : List Round) :
    Budget past rounds (run platform notifier r rounds) ∧
      Asked (run platform notifier r rounds).calls ∧
      ((run platform notifier r rounds).ending ≠ .running →
        ∀ more, run platform notifier r (rounds ++ more) = run platform notifier r rounds) ∧
      (∀ (s s' : Reporter) (turn : Turn) (e : Failure),
        cycleMut platform turn s = some (.error e, s') → s' = s) ∧
      ∀ (s s' : Reporter) (turn : Turn) (goOn : Bool),
        s.tick platform turn = some (s', goOn, .failed) →
          s'.next = s.next ∧ s'.firstPending = s.firstPending ∧ s'.reports = s.reports := by
  refine ⟨budget_of_run hbound hpast rounds, asked_of_run rounds, run_append,
    ?_, ?_⟩
  · intro s s' turn e h
    rw [cycleMut_eq] at h
    cases hcycle : s.cycle platform turn with
    | ok result => simp [hcycle] at h
    | err e' =>
      rw [hcycle] at h
      simp at h
      exact h.2.symm
    | panicked => simp [hcycle] at h
  · intro s s' turn goOn h
    rcases counted_of_tick h with ⟨hne, -, -⟩ | ⟨-, rfl, -⟩
    · exact absurd rfl hne
    · exact ⟨rfl, rfl, rfl⟩

/-- An iteration whose `maintain()` fails. -/
def failedRound : Round := ⟨false, { turnAt .zero true with maintained := false }, .zero⟩

theorem failure_budget_fifth : ∃ cfg r,
    fromYaml .defaultsOnly .empty "" "host" (fun _ => none) = .ok cfg ∧
      withIo cfg .zero = .ok r ∧
      (run .empty none { r with failures := 4 } [failedRound]).ending = .returned 1 := by
  obtain ⟨cfg, hcfg, -⟩ := fromYaml_defaultsOnly
  obtain ⟨haccepted, -⟩ := accepted_of_fromYaml hcfg
  obtain ⟨r, hr⟩ := withIo_of_shaped haccepted.shaped .zero
  obtain ⟨hbudget, -⟩ := failure_budget .empty none { r with failures := 4 }
    [false, false, false, false] rfl (by decide) [failedRound]
  have hcalls : (run .empty none { r with failures := 4 } [failedRound]).calls =
      [.stopped false, .tick .failed false] := rfl
  refine ⟨cfg, r, hcfg, hr, hbudget.spent.2 ?_⟩
  rw [hcalls]
  exact ⟨by decide, by decide, by decide⟩

end Reporter
end SystemReport
