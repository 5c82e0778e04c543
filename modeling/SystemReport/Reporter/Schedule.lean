import SystemReport.Lib.Machine
import SystemReport.Reporter.Report

/-!
# The schedule

`Reporter::with_io`, `report_once`, `cycle` and `tick`.  A call of `tick()` reads the clock at most
twice: to see whether a report is due, and after the report, or the slot that is skipped, to
schedule the next one.

`Run` follows a sequence of calls and keeps a record of what they did.  `schedule_law` says what
holds of every such record as long as the clock does not go back.
-/

set_option autoImplicit false

open Machine

namespace SystemReport

/-- The parts of `Reporter` that the schedule works with. -/
structure Reporter where
  cfg : Config
  interval : Duration
  next : Duration
  firstPending : Bool
  failures : UInt32
  reports : UInt64

namespace Reporter

open Config Collectors Outcome

/-! ## The model -/

/-- `with_io`, given what the clock reads. -/
def withIo (cfg : Config) (now : Duration) : Outcome ConfigError Reporter := do
  let secs ← .unwrap ((cfg.data.index "report").index "interval_secs").asU64
  let firstPending ← .unwrap ((cfg.data.index "report").index "report_on_start").asBool
  let interval := Duration.fromSecs secs
  .ok
    { cfg
      interval
      next := now.saturatingAdd (if firstPending then .zero else interval)
      firstPending
      failures := 0
      reports := 0 }

/-- What a call of `tick()` meets: the result of `maintain()`, the clock when it is read for the
first and for the second time, the connection, the files below `/proc`, and which publications
succeed. -/
structure Turn where
  maintained : Bool
  due : Duration
  connected : Bool
  host : Host
  delivered : String × String → Bool
  done : Duration

/-- Why a cycle fails. -/
inductive Failure
  | maintain
  | report (e : ConfigError)

/-- For the record: what a call of `tick()` did, with the clock as it was read. -/
inductive Event
  /-- the cycle failed -/
  | failed
  /-- nothing was due, or the first report waits for a connection -/
  | idle (due : Duration)
  /-- the slot was skipped, as there is no connection -/
  | skipped (due done : Duration)
  /-- a report was made -/
  | reported (due done : Duration)
deriving DecidableEq

/-- `seconds_until_due`. -/
def secondsUntilDue (r : Reporter) (now : Duration) : Duration := r.next.saturatingSub now

/-- `report_once`, which returns how many messages were published. -/
def reportOnce (platform : Platform) (r : Reporter) (turn : Turn) :
    Outcome ConfigError (Reporter × ℕ) := do
  let snapshot ← collect r.cfg turn.host
  let messages ← messagesFor platform r.cfg snapshot
  .ok ({ r with reports := r.reports + 1 }, (messages.filter turn.delivered).length)

/-- `cycle`. -/
def cycle (platform : Platform) (r : Reporter) (turn : Turn) : Outcome Failure (Reporter × Event) :=
  if !turn.maintained then .err .maintain
  else if (r.secondsUntilDue turn.due).isZero then
    if turn.connected then
      match r.reportOnce platform turn with
      | .ok (r, _) =>
        .ok ({ r with firstPending := false, next := turn.done.saturatingAdd r.interval },
          .reported turn.due turn.done)
      | .err e => .err (.report e)
      | .panicked => .panicked
    else if !r.firstPending then
      .ok ({ r with next := turn.done.saturatingAdd r.interval }, .skipped turn.due turn.done)
    else .ok (r, .idle turn.due)
  else .ok (r, .idle turn.due)

/-- `MAX_CONSECUTIVE_CYCLE_FAILURES`. -/
def maxConsecutiveCycleFailures : UInt32 := 5

/-- `tick`: none is a panic. -/
def tick (platform : Platform) (r : Reporter) (turn : Turn) : Option (Reporter × Bool × Event) :=
  match r.cycle platform turn with
  | .ok (r, event) => some ({ r with failures := 0 }, true, event)
  | .err _ =>
    let failures := r.failures + 1
    some ({ r with failures }, decide (failures < maxConsecutiveCycleFailures), .failed)
  | .panicked => none

/-! ## Runs -/

/-- The latest clock sample that a call took. -/
def Event.sample : Event → Option Duration
  | .failed => none
  | .idle due => some due
  | .skipped _ done | .reported _ done => some done

/-- The clock when a report was begun and when it was done. -/
def Event.report : Event → Option (Duration × Duration)
  | .reported due done => some (due, done)
  | _ => none

/-- The same for a slot, whether it was used or skipped. -/
def Event.slot : Event → Option (Duration × Duration)
  | .reported due done | .skipped due done => some (due, done)
  | _ => none

/-- A sequence of calls: the reporter after them, the latest clock sample, what the calls met and
what they did. -/
structure Run where
  reporter : Reporter
  sampled : Duration
  turns : List Turn
  log : List Event

namespace Run

/-- Before the first call. -/
def init (r : Reporter) (now : Duration) : Run := ⟨r, now, [], []⟩

/-- One more call. -/
def step (platform : Platform) (s : Run) (turn : Turn) : Option Run :=
  (s.reporter.tick platform turn).map fun (r, _, event) =>
    { reporter := r
      sampled := event.sample.getD s.sampled
      turns := s.turns ++ [turn]
      log := s.log ++ [event] }

/-- The reports of a run. -/
def reports (s : Run) : List (Duration × Duration) := s.log.filterMap Event.report

/-- The slots of a run. -/
def slots (s : Run) : List (Duration × Duration) := s.log.filterMap Event.slot

end Run

/-- The clock does not go back, and an interval after it is still a `Duration`.  (A sample that is
not taken can be put down as anything.) -/
def Timely (s : Run) (turn : Turn) : Prop :=
  s.sampled ≤ turn.due ∧ turn.due ≤ turn.done ∧
    turn.done.nanos + s.reporter.interval.nanos ≤ maxNanos

/-! ## What a call does -/

variable {platform : Platform}

theorem isZero_secondsUntilDue (r : Reporter) (now : Duration) :
    (r.secondsUntilDue now).isZero = true ↔ r.next ≤ now :=
  Duration.isZero_saturatingSub _ _

/-- With an accepted configuration, a report is always made. -/
theorem reportOnce_of_accepted {r : Reporter} (h : Accepted platform r.cfg) (turn : Turn) :
    ∃ n, r.reportOnce platform turn = .ok ({ r with reports := r.reports + 1 }, n) := by
  obtain ⟨plan, hplan⟩ := plan_of_shaped h.shaped
  obtain ⟨snapshot, hcollect, hmessages⟩ :=
    messagesFor_of_plan hplan turn.host fun _ => meminfoTopic_of_plan h hplan
  rw [reportOnce, hcollect, ok_bind, hmessages, ok_bind]
  exact ⟨_, rfl⟩

/-- What a call of `tick()` can do: the reporter after it, what it returns, and the record of it. -/
inductive Called (r : Reporter) (turn : Turn) : Reporter → Bool → Event → Prop
  | failed (hmaintain : turn.maintained = false) :
      Called r turn { r with failures := r.failures + 1 }
        (decide (r.failures + 1 < maxConsecutiveCycleFailures)) .failed
  | early (hmaintain : turn.maintained = true) (hdue : turn.due < r.next) :
      Called r turn { r with failures := 0 } true (.idle turn.due)
  | waits (hmaintain : turn.maintained = true) (hdue : r.next ≤ turn.due)
      (hconnected : turn.connected = false) (hpending : r.firstPending = true) :
      Called r turn { r with failures := 0 } true (.idle turn.due)
  | skipped (hmaintain : turn.maintained = true) (hdue : r.next ≤ turn.due)
      (hconnected : turn.connected = false) (hpending : r.firstPending = false) :
      Called r turn { r with failures := 0, next := turn.done.saturatingAdd r.interval } true
        (.skipped turn.due turn.done)
  | reported (hmaintain : turn.maintained = true) (hdue : r.next ≤ turn.due)
      (hconnected : turn.connected = true) :
      Called r turn
        { r with
          failures := 0
          reports := r.reports + 1
          firstPending := false
          next := turn.done.saturatingAdd r.interval } true
        (.reported turn.due turn.done)

/-- **With an accepted configuration, a call does one of five things**, and never panics. -/
theorem called_of_accepted {r : Reporter} (h : Accepted platform r.cfg) (turn : Turn) :
    ∃ r' goOn event, r.tick platform turn = some (r', goOn, event) ∧
      Called r turn r' goOn event := by
  by_cases hmaintain : turn.maintained = true
  · by_cases hdue : r.next ≤ turn.due
    · have hzero := (isZero_secondsUntilDue r turn.due).2 hdue
      by_cases hconnected : turn.connected = true
      · obtain ⟨n, hreport⟩ := reportOnce_of_accepted h turn
        refine ⟨_, _, _, ?_, .reported hmaintain hdue hconnected⟩
        simp [tick, cycle, hmaintain, hzero, hconnected, hreport]
      · have hconnected : turn.connected = false := by simpa using hconnected
        by_cases hpending : r.firstPending = true
        · refine ⟨_, _, _, ?_, .waits hmaintain hdue hconnected hpending⟩
          simp [tick, cycle, hmaintain, hzero, hconnected, hpending]
        · have hpending : r.firstPending = false := by simpa using hpending
          refine ⟨_, _, _, ?_, .skipped hmaintain hdue hconnected hpending⟩
          simp [tick, cycle, hmaintain, hzero, hconnected, hpending]
    · have hzero : (r.secondsUntilDue turn.due).isZero = false := by
        rw [Bool.eq_false_iff, ne_eq, isZero_secondsUntilDue]
        exact hdue
      refine ⟨_, _, _, ?_, .early hmaintain (lt_of_not_ge hdue)⟩
      simp [tick, cycle, hmaintain, hzero]
  · have hmaintain : turn.maintained = false := by simpa using hmaintain
    refine ⟨_, _, _, ?_, .failed hmaintain⟩
    simp [tick, cycle, hmaintain]

/-- And each of them is what a call does where it applies. -/
theorem tick_of_called {r r' : Reporter} {turn : Turn} {goOn : Bool} {event : Event}
    (h : Accepted platform r.cfg) (hcalled : Called r turn r' goOn event) :
    r.tick platform turn = some (r', goOn, event) := by
  cases hcalled with
  | failed hmaintain => simp [tick, cycle, hmaintain]
  | early hmaintain hdue =>
    have hzero : (r.secondsUntilDue turn.due).isZero = false := by
      rw [Bool.eq_false_iff, ne_eq, isZero_secondsUntilDue]
      exact not_le_of_gt hdue
    simp [tick, cycle, hmaintain, hzero]
  | waits hmaintain hdue hconnected hpending =>
    have hzero := (isZero_secondsUntilDue r turn.due).2 hdue
    simp [tick, cycle, hmaintain, hzero, hconnected, hpending]
  | skipped hmaintain hdue hconnected hpending =>
    have hzero := (isZero_secondsUntilDue r turn.due).2 hdue
    simp [tick, cycle, hmaintain, hzero, hconnected, hpending]
  | reported hmaintain hdue hconnected =>
    have hzero := (isZero_secondsUntilDue r turn.due).2 hdue
    obtain ⟨n, hreport⟩ := reportOnce_of_accepted h turn
    simp [tick, cycle, hmaintain, hzero, hconnected, hreport]

/-- The run after a call with the given outcome. -/
def Run.after (s : Run) (turn : Turn) (r' : Reporter) (event : Event) : Run where
  reporter := r'
  sampled := event.sample.getD s.sampled
  turns := s.turns ++ [turn]
  log := s.log ++ [event]

/-- A step of a run is one of these calls. -/
theorem Run.called {s s' : Run} {turn : Turn} (h : Accepted platform s.reporter.cfg)
    (hs : s.step platform turn = some s') :
    ∃ r' goOn event, Called s.reporter turn r' goOn event ∧ s' = s.after turn r' event := by
  obtain ⟨r', goOn, event, htick, hcalled⟩ := called_of_accepted h turn
  rw [Run.step, htick] at hs
  exact ⟨r', goOn, event, hcalled, (Option.some.inj hs).symm⟩

theorem Run.reports_after (s : Run) (turn : Turn) (r' : Reporter) (event : Event) :
    (s.after turn r' event).reports = s.reports ++ event.report.toList := by
  rw [Run.reports, Run.reports, Run.after, List.filterMap_append]
  cases h : event.report <;> simp [h]

theorem Run.reports_after_of_none (s : Run) (turn : Turn) (r' : Reporter) {event : Event}
    (h : event.report = none) : (s.after turn r' event).reports = s.reports := by
  rw [reports_after, h, Option.toList_none, List.append_nil]

theorem Run.reports_after_ne_nil (s : Run) (turn : Turn) (r' : Reporter) {event : Event}
    (h : event.report ≠ none) : (s.after turn r' event).reports ≠ [] := by
  obtain ⟨report, hreport⟩ := Option.ne_none_iff_exists'.1 h
  rw [reports_after, hreport]
  exact List.append_ne_nil_of_right_ne_nil _ nofun

theorem Run.slots_after (s : Run) (turn : Turn) (r' : Reporter) (event : Event) :
    (s.after turn r' event).slots = s.slots ++ event.slot.toList := by
  rw [Run.slots, Run.slots, Run.after, List.filterMap_append]
  cases h : event.slot <;> simp [h]

/-! ## What a run keeps -/

/-- What holds after every call, for a run that starts with the reporter `r`. -/
structure Follows (r : Reporter) (s : Run) : Prop where
  cfg : s.reporter.cfg = r.cfg
  interval : s.reporter.interval = r.interval
  /-- the next slot is at most an interval away -/
  next_le : s.reporter.next.nanos ≤ s.sampled.nanos + r.interval.nanos
  pending : s.reporter.firstPending = true ↔ r.firstPending = true ∧ s.reports = []
  /-- a first report that is pending is due -/
  ready : s.reporter.firstPending = true → s.reporter.next ≤ s.sampled
  /-- a slot begins at least an interval after the end of each one before it -/
  spaced : s.slots.Pairwise fun a b => a.2.nanos + r.interval.nanos ≤ b.1.nanos
  next_ge : ∀ slot ∈ s.slots, slot.2.nanos + r.interval.nanos ≤ s.reporter.next.nanos
  made : r.firstPending = true →
    (s.reports ≠ [] ↔ ∃ turn ∈ s.turns, turn.maintained = true ∧ turn.connected = true)
  counted : s.reporter.reports = UInt64.ofNat s.reports.length

theorem follows_init {r : Reporter} {now : Duration} (hreports : r.reports = 0)
    (hnext : r.next.nanos ≤ now.nanos + r.interval.nanos)
    (hready : r.firstPending = true → r.next ≤ now) : Follows r (.init r now) where
  cfg := rfl
  interval := rfl
  next_le := hnext
  pending := ⟨fun h => ⟨h, rfl⟩, And.left⟩
  ready := hready
  spaced := .nil
  next_ge _ h := absurd h List.not_mem_nil
  made _ := ⟨fun h => absurd rfl h, fun ⟨_, h, _⟩ => absurd h List.not_mem_nil⟩
  counted := hreports

namespace Follows

variable {r r' : Reporter} {s : Run} {turn : Turn} {goOn : Bool} {event : Event}

theorem next_le_after (h : Follows r s) (ht : Timely s turn)
    (hcalled : Called s.reporter turn r' goOn event) :
    r'.next.nanos ≤ (event.sample.getD s.sampled).nanos + r.interval.nanos := by
  have hnext := h.next_le
  have hdue : s.sampled.nanos ≤ turn.due.nanos := ht.1
  have hscheduled : (turn.done.saturatingAdd s.reporter.interval).nanos ≤
      turn.done.nanos + r.interval.nanos := by
    rw [← h.interval]
    exact Nat.min_le_left _ _
  cases hcalled with
  | failed => exact hnext
  | early | waits => exact hnext.trans (Nat.add_le_add_right hdue _)
  | skipped | reported => exact hscheduled

theorem pending_after (h : Follows r s) (hcalled : Called s.reporter turn r' goOn event) :
    r'.firstPending = true ↔ r.firstPending = true ∧ (s.after turn r' event).reports = [] := by
  cases hcalled with
  | failed | early | waits | skipped =>
    rw [Run.reports_after_of_none _ _ _ rfl]
    exact h.pending
  | reported => exact ⟨nofun, fun h => absurd h.2 (Run.reports_after_ne_nil _ _ _ nofun)⟩

theorem ready_after (h : Follows r s) (ht : Timely s turn)
    (hcalled : Called s.reporter turn r' goOn event) :
    r'.firstPending = true → r'.next ≤ event.sample.getD s.sampled := by
  cases hcalled with
  | failed => exact h.ready
  | early | waits => exact fun hpending => (h.ready hpending).trans ht.1
  | skipped _ _ _ hnot => exact fun hpending => absurd hpending (by rw [hnot]; exact nofun)
  | reported => exact nofun

/-- What a slot leaves: it began late enough, and the next one is late enough. -/
theorem slot_after (h : Follows r s) (ht : Timely s turn)
    (hcalled : Called s.reporter turn r' goOn event) :
    (event.slot = none ∧ r'.next = s.reporter.next) ∨
      (event.slot = some (turn.due, turn.done) ∧ s.reporter.next ≤ turn.due ∧
        r'.next.nanos = turn.done.nanos + r.interval.nanos) := by
  have hscheduled : (turn.done.saturatingAdd s.reporter.interval).nanos =
      turn.done.nanos + r.interval.nanos := by
    rw [← h.interval]
    exact Nat.min_eq_left ht.2.2
  cases hcalled with
  | failed | early | waits => exact .inl ⟨rfl, rfl⟩
  | skipped _ hdue | reported _ hdue => exact .inr ⟨rfl, hdue, hscheduled⟩

theorem next_ge_after (h : Follows r s) (ht : Timely s turn)
    (hcalled : Called s.reporter turn r' goOn event) :
    ∀ slot ∈ (s.after turn r' event).slots, slot.2.nanos + r.interval.nanos ≤ r'.next.nanos := by
  intro slot hslot
  have hdone : turn.due.nanos ≤ turn.done.nanos := ht.2.1
  rw [Run.slots_after, List.mem_append] at hslot
  rcases h.slot_after ht hcalled with ⟨hnone, hnext⟩ | ⟨hsome, hdue, hnext⟩
  · rw [hnone] at hslot
    rw [hnext]
    exact h.next_ge slot (hslot.resolve_right List.not_mem_nil)
  · rw [hsome, Option.toList_some, List.mem_singleton] at hslot
    rw [Duration.le_def] at hdue
    rcases hslot with hslot | rfl
    · have := h.next_ge slot hslot
      omega
    · exact hnext.ge

theorem spaced_after (h : Follows r s) (ht : Timely s turn)
    (hcalled : Called s.reporter turn r' goOn event) :
    (s.after turn r' event).slots.Pairwise fun a b =>
      a.2.nanos + r.interval.nanos ≤ b.1.nanos := by
  rw [Run.slots_after]
  rcases h.slot_after ht hcalled with ⟨hnone, -⟩ | ⟨hsome, hdue, -⟩
  · rw [hnone, Option.toList_none, List.append_nil]
    exact h.spaced
  · rw [hsome, Option.toList_some, List.pairwise_append]
    refine ⟨h.spaced, List.pairwise_singleton _ _, fun slot hslot new hnew => ?_⟩
    rw [List.mem_singleton] at hnew
    subst hnew
    exact (h.next_ge slot hslot).trans hdue

theorem made_after (h : Follows r s) (ht : Timely s turn)
    (hcalled : Called s.reporter turn r' goOn event) (hstart : r.firstPending = true) :
    (s.after turn r' event).reports ≠ [] ↔
      ∃ t ∈ s.turns ++ [turn], t.maintained = true ∧ t.connected = true := by
  have hmade := h.made hstart
  -- a call that reports nothing meets no connection, unless a report was made before
  have hquiet : event.report = none →
      (turn.maintained = true → turn.connected = true → s.reports ≠ []) →
      ((s.after turn r' event).reports ≠ [] ↔
        ∃ t ∈ s.turns ++ [turn], t.maintained = true ∧ t.connected = true) := by
    intro hnone hturn
    rw [Run.reports_after_of_none _ _ _ hnone, hmade]
    constructor
    · rintro ⟨t, ht, hmet⟩
      exact ⟨t, List.mem_append_left _ ht, hmet⟩
    · rintro ⟨t, ht, hmet⟩
      rcases List.mem_append.1 ht with ht | ht
      · exact ⟨t, ht, hmet⟩
      · rw [List.mem_singleton] at ht
        subst ht
        exact hmade.1 (hturn hmet.1 hmet.2)
  cases hcalled with
  | failed hmaintain => exact hquiet rfl fun h => by rw [hmaintain] at h; cases h
  | early _ hearly =>
    refine hquiet rfl fun _ _ hnone => ?_
    -- the first report would be due
    have hdue := (h.ready (h.pending.2 ⟨hstart, hnone⟩)).trans ht.1
    exact absurd hdue (not_le_of_gt hearly)
  | waits _ _ hconnected _ | skipped _ _ hconnected _ =>
    exact hquiet rfl fun _ h => by rw [hconnected] at h; cases h
  | reported hmaintain _ hconnected =>
    exact ⟨fun _ => ⟨turn, List.mem_append_right _ (List.mem_singleton_self _), hmaintain,
      hconnected⟩, fun _ => Run.reports_after_ne_nil _ _ _ nofun⟩

theorem counted_after (h : Follows r s) (hcalled : Called s.reporter turn r' goOn event) :
    r'.reports = UInt64.ofNat (s.after turn r' event).reports.length := by
  cases hcalled with
  | failed | early | waits | skipped =>
    rw [Run.reports_after_of_none _ _ _ rfl]
    exact h.counted
  | reported =>
    rw [Run.reports_after, Event.report, Option.toList_some, List.length_append,
      List.length_singleton, UInt64.ofNat_add, ← h.counted]
    rfl

/-- **A call keeps it all.** -/
theorem after (h : Follows r s) (ht : Timely s turn)
    (hcalled : Called s.reporter turn r' goOn event) : Follows r (s.after turn r' event) where
  cfg := by rw [← h.cfg]; cases hcalled <;> rfl
  interval := by rw [← h.interval]; cases hcalled <;> rfl
  next_le := h.next_le_after ht hcalled
  pending := h.pending_after hcalled
  ready := h.ready_after ht hcalled
  spaced := h.spaced_after ht hcalled
  next_ge := h.next_ge_after ht hcalled
  made := h.made_after ht hcalled
  counted := h.counted_after hcalled

end Follows

theorem follows_of_reach {r : Reporter} {now : Duration} {s : Run} (haccepted : Accepted platform r.cfg)
    (hinit : Follows r (.init r now)) (h : Reach (Run.step platform) Timely (.init r now) s) :
    Follows r s :=
  h.invariant hinit fun _ _ _ hfollows ht hstep => by
    obtain ⟨_, _, _, hcalled, rfl⟩ := Run.called (by rw [hfollows.cfg]; exact haccepted) hstep
    exact hfollows.after ht hcalled

theorem withIo_of_shaped {cfg : Config} (h : Shaped cfg.data) (now : Duration) :
    ∃ r, withIo cfg now = .ok r := by
  obtain ⟨secs, hsecs⟩ := h.isU64 ["report", "interval_secs"] rfl
  obtain ⟨firstPending, hfirst⟩ := h.bool ["report", "report_on_start"] rfl
  rw [withIo, show ((cfg.data.index "report").index "interval_secs").asU64 = some secs from hsecs,
    show ((cfg.data.index "report").index "report_on_start").asBool = some firstPending from hfirst]
  exact ⟨_, rfl⟩

/-- A run begins with `with_io`. -/
theorem follows_of_withIo {cfg : Config} {now : Duration} {r : Reporter}
    (h : withIo cfg now = .ok r) : r.cfg = cfg ∧ Follows r (.init r now) := by
  obtain ⟨secs, -, h⟩ := bind_eq_ok.1 h
  obtain ⟨firstPending, -, h⟩ := bind_eq_ok.1 h
  cases h
  refine ⟨rfl, follows_init rfl ?_ ?_⟩
  · rw [Duration.nanos_saturatingAdd]
    refine (Nat.min_le_left _ _).trans (Nat.add_le_add_left ?_ _)
    split
    · exact Nat.zero_le _
    · exact le_rfl
  · rintro (rfl : firstPending = true)
    exact Nat.min_le_left _ _

/-- Nothing is counted yet. -/
theorem counts_of_withIo {cfg : Config} {now : Duration} {r : Reporter}
    (h : withIo cfg now = .ok r) : r.failures = 0 ∧ r.reports = 0 := by
  obtain ⟨secs, -, h⟩ := bind_eq_ok.1 h
  obtain ⟨firstPending, -, h⟩ := bind_eq_ok.1 h
  cases h
  exact ⟨rfl, rfl⟩

/-- Reports are slots. -/
theorem reports_sublist_slots (log : List Event) :
    (log.filterMap Event.report).Sublist (log.filterMap Event.slot) := by
  induction log with
  | nil => exact .slnil
  | cons event log ih =>
    cases event with
    | failed | idle => exact ih
    | skipped due done => exact ih.cons _
    | reported due done => exact ih.cons_cons _

/-- **The law of the schedule.**  In every run of calls with a clock that does not go back, each
report begins at least an interval after the end of the one before; the next slot is at most an
interval away; the first report is made by the first call that gets past `maintain()` and finds a
connection, if `report_on_start` asks for one; and otherwise a slot without a connection is skipped,
after which the next one comes no sooner than an interval later. -/
theorem schedule_law (lib : SerdeYaml) (platform : Platform) (yaml hostname : String) (env : Env)
    (cfg : Config) (hcfg : fromYaml lib platform yaml hostname env = .ok cfg) (now : Duration)
    (r : Reporter) (hr : withIo cfg now = .ok r) (s : Run)
    (hs : Reach (Run.step platform) Timely (.init r now) s) :
    (s.reports.Pairwise fun a b => a.2.nanos + r.interval.nanos ≤ b.1.nanos) ∧
    s.reporter.next.nanos ≤ s.sampled.nanos + r.interval.nanos ∧
    (r.firstPending = true →
      (s.reports ≠ [] ↔ ∃ turn ∈ s.turns, turn.maintained = true ∧ turn.connected = true)) ∧
    (s.slots.Pairwise fun a b => a.2.nanos + r.interval.nanos ≤ b.1.nanos) ∧
    ∀ turn s', Timely s turn → s.step platform turn = some s' → turn.maintained = true →
      s.reporter.next ≤ turn.due → turn.connected = false →
      (r.firstPending = true → s.reports ≠ []) →
      s'.slots = s.slots ++ [(turn.due, turn.done)] ∧ s'.reports = s.reports := by
  obtain ⟨haccepted, -⟩ := accepted_of_fromYaml hcfg
  obtain ⟨rfl, hinit⟩ := follows_of_withIo hr
  have h := follows_of_reach haccepted hinit hs
  refine ⟨h.spaced.sublist (reports_sublist_slots s.log), h.next_le, h.made, h.spaced, ?_⟩
  intro turn s' ht hstep hmaintain hdue hconnected hfirst
  obtain ⟨r', goOn, event, hcalled, rfl⟩ := Run.called (by rw [h.cfg]; exact haccepted) hstep
  cases hcalled with
  | failed hnot => rw [hmaintain] at hnot; cases hnot
  | early _ hearly => exact absurd hdue (not_le_of_gt hearly)
  | waits _ _ _ hpending =>
    obtain ⟨hstart, hnone⟩ := h.pending.1 hpending
    exact absurd hnone (hfirst hstart)
  | skipped => exact ⟨Run.slots_after _ _ _ _, Run.reports_after_of_none _ _ _ rfl⟩
  | reported _ _ hnot => rw [hconnected] at hnot; cases hnot

/-- The reporter of the defaults. -/
theorem withIo_defaultsOnly : ∃ cfg r,
    fromYaml .defaultsOnly .empty "" "host" (fun _ => none) = .ok cfg ∧ withIo cfg .zero = .ok r ∧
      r.cfg = cfg ∧ cfg.data = defaults ∧ Accepted .empty cfg ∧ r.interval = .fromSecs 600 ∧
      r.next = .zero ∧ r.firstPending = true ∧ r.reports = 0 := by
  obtain ⟨cfg, hcfg, hdata⟩ := fromYaml_defaultsOnly
  obtain ⟨haccepted, -⟩ := accepted_of_fromYaml hcfg
  obtain ⟨r, hr⟩ := withIo_of_shaped haccepted.shaped .zero
  have hschedule : r.interval = .fromSecs 600 ∧ r.next = .zero ∧ r.firstPending = true := by
    have hr' := hr
    rw [withIo, hdata] at hr'
    have heq := ok.inj hr'
    rw [← heq]
    exact ⟨rfl, rfl, rfl⟩
  exact ⟨cfg, r, hcfg, hr, (follows_of_withIo hr).1, hdata, haccepted, hschedule.1, hschedule.2.1,
    hschedule.2.2, (counts_of_withIo hr).2⟩

/-- A call that takes no time. -/
def turnAt (now : Duration) (connected : Bool) : Turn :=
  ⟨true, now, connected, smallHost, fun _ => true, now⟩

/-- A slot that is used. -/
theorem Run.step_turnAt (platform : Platform) {s : Run} (now : Duration)
    (h : Accepted platform s.reporter.cfg) (hdue : s.reporter.next ≤ now) :
    ∃ s', s.step platform (turnAt now true) = some s' ∧
      s'.reporter.cfg = s.reporter.cfg ∧ s'.reporter.interval = s.reporter.interval ∧
      s'.reporter.next = now.saturatingAdd s.reporter.interval ∧ s'.sampled = now ∧
      s'.reports = s.reports ++ [(now, now)] := by
  have htick : s.reporter.tick platform (turnAt now true) = some _ :=
    tick_of_called h (.reported rfl hdue rfl)
  refine ⟨_, congrArg (Option.map _) htick, rfl, rfl, rfl, rfl, ?_⟩
  exact Run.reports_after s (turnAt now true) _ (.reported now now)

/-- Two slots with a connection, and a third one without. -/
theorem schedule_law_threeSlots : ∃ cfg r s s',
    fromYaml .defaultsOnly .empty "" "host" (fun _ => none) = .ok cfg ∧
      withIo cfg .zero = .ok r ∧ Reach (Run.step .empty) Timely (.init r .zero) s ∧
      s.reports = [(.zero, .zero), (.fromSecs 600, .fromSecs 600)] ∧
      (s.reports.Pairwise fun a b => a.2.nanos + r.interval.nanos ≤ b.1.nanos) ∧
      s.step .empty (turnAt (.fromSecs 1200) false) = some s' ∧
      s'.slots = s.slots ++ [(.fromSecs 1200, .fromSecs 1200)] ∧ s'.reports = s.reports := by
  obtain ⟨cfg, r, hcfg, hr, hrcfg, -, haccepted, hinterval, hnext, -, -⟩ := withIo_defaultsOnly
  obtain ⟨s, hs, hscfg, hsinterval, hsnext, hssampled, hsreports⟩ :=
    Run.step_turnAt .empty (s := .init r .zero) .zero (hrcfg ▸ haccepted)
      hnext.le
  rw [Run.init, hinterval] at hsinterval hsnext
  rw [Run.init, hrcfg] at hscfg
  obtain ⟨t, ht, htcfg, htinterval, htnext, htsampled, htreports⟩ :=
    Run.step_turnAt .empty (.fromSecs 600) (hscfg ▸ haccepted)
      (by rw [hsnext]; decide)
  rw [hsinterval] at htinterval htnext
  obtain ⟨r', goOn, event, htick, -⟩ := called_of_accepted (htcfg ▸ hscfg ▸ haccepted)
    (turnAt (.fromSecs 1200) false)
  have hskip : t.step .empty (turnAt (.fromSecs 1200) false) = some _ :=
    congrArg (Option.map _) htick
  have hfirst : Timely (.init r .zero) (turnAt .zero true) := by
    refine ⟨le_rfl, le_rfl, ?_⟩
    change Duration.zero.nanos + r.interval.nanos ≤ maxNanos
    rw [hinterval]
    decide
  have hsecond : Timely s (turnAt (.fromSecs 600) true) :=
    ⟨by rw [hssampled]; decide, le_rfl, by rw [hsinterval]; decide⟩
  have hthird : Timely t (turnAt (.fromSecs 1200) false) :=
    ⟨by rw [htsampled]; decide, le_rfl, by rw [htinterval]; decide⟩
  have hreach := (Reach.single hfirst hs).snoc hsecond ht
  have hreports : t.reports = [(.zero, .zero), (.fromSecs 600, .fromSecs 600)] := by
    rw [htreports, hsreports]
    rfl
  obtain ⟨hspaced, -, -, -, hlater⟩ := schedule_law _ _ _ _ _ cfg hcfg .zero r hr t hreach
  obtain ⟨hslots, hsame⟩ := hlater _ _ hthird hskip rfl (by rw [htnext]; decide) rfl
    fun _ => by rw [hreports]; simp
  exact ⟨cfg, r, t, _, hcfg, hr, hreach, hreports, hspaced, hskip, hslots, hsame⟩

end Reporter
end SystemReport
