import SystemReport.Service.Cycle
import SystemReport.Service.Lifecycle

/-!
# The program follows the schedule

`Schedule` describes a call of `tick()` as one step, with what the call meets given from outside.
In the program a tick is spread over many steps of the main thread, with those of the network thread
and of time between them.  `Ticks` reads a run of calls off a run of the program, in which each call
meets what the publisher shows at that moment and what the clock reads there, so that the law of the
schedule holds of the program itself.
-/

set_option autoImplicit false

open Machine

namespace SystemReport

open Mqtt Reporter Config Collectors

/-- How the reporter of the program stands to that of a run of calls, from the stage and the time: a
call that is not over yet has changed nothing, up to the report itself. -/
def Stage.Matches (stage : Stage) (r : Reporter) (now : Duration) (run : Run) : Prop :=
  match stage with
  | .starting | .started | .looping | .maintained _ | .ticked | .waiting _ _ | .awaiting _
  | .dozing _ _ _ | .reporting .once | .publishing .once _ _ _ => r = run.reporter
  | .due d | .reporting (.cycle d) | .publishing (.cycle d) _ _ _ =>
    r = run.reporter ∧ run.reporter.next ≤ d ∧ run.sampled ≤ d ∧ d ≤ now
  | .scheduling d true =>
    r = { run.reporter with reports := run.reporter.reports + 1, firstPending := false } ∧
      run.reporter.next ≤ d ∧ run.sampled ≤ d ∧ d ≤ now
  | .scheduling d false =>
    r = run.reporter ∧ run.reporter.next ≤ d ∧ run.sampled ≤ d ∧ d ≤ now ∧
      run.reporter.firstPending = false
  | .leaving _ | .stopped _ | .dropped _ | .ended _ | .panicked => True

/-- A report has been made whose call is not over. -/
def Stage.isReporting : Stage → Bool
  | .publishing _ _ _ _ | .scheduling _ true => true
  | _ => false

/-- The program is on its way out. -/
def Stage.isOver : Stage → Bool
  | .leaving _ | .stopped _ | .dropped _ | .ended _ | .panicked => true
  | _ => false

theorem Stage.isReporting_heard (stage : Stage) (a : Act) :
    (stage.heard a).isReporting = stage.isReporting ∧ (stage.heard a).isOver = stage.isOver := by
  cases stage with
  | publishing purpose total completed todo =>
    rcases heard_publishing purpose total completed todo a with heq | heq <;>
      rw [heq] <;>
      exact ⟨rfl, rfl⟩
  | _ => exact ⟨rfl, rfl⟩

/-- Time may pass, and a verdict may arrive. -/
theorem Stage.Matches.mono {stage : Stage} {r : Reporter} {now now' : Duration} {run : Run}
    (h : stage.Matches r now run) (hle : now ≤ now') (a : Act) :
    (stage.heard a).Matches r now' run := by
  have hdue {d : Duration} (h : r = run.reporter ∧ run.reporter.next ≤ d ∧ run.sampled ≤ d ∧
      d ≤ now) : r = run.reporter ∧ run.reporter.next ≤ d ∧ run.sampled ≤ d ∧ d ≤ now' :=
    ⟨h.1, h.2.1, h.2.2.1, h.2.2.2.trans hle⟩
  cases stage with
  | due => exact hdue h
  | reporting purpose =>
    cases purpose with
    | cycle => exact hdue h
    | once => exact h
  | publishing purpose total completed todo =>
    have h' : (Stage.publishing purpose total (completed + 1) todo).Matches r now' run ∧
        (Stage.publishing purpose total completed todo).Matches r now' run := by
      cases purpose with
      | cycle => exact ⟨hdue h, hdue h⟩
      | once => exact ⟨h, h⟩
    rcases heard_publishing purpose total completed todo a with heq | heq
    · rw [heq]
      exact h'.2
    · rw [heq]
      exact h'.1
  | scheduling due reported =>
    cases reported with
    | true => exact ⟨h.1, h.2.1, h.2.2.1, h.2.2.2.trans hle⟩
    | false => exact ⟨h.1, h.2.1, h.2.2.1, h.2.2.2.1.trans hle, h.2.2.2.2⟩
  | _ => exact h

namespace Service

/-- The run of calls behind a state of the program. -/
structure Ticks (job : Job) (r : Reporter) (now : Duration) (s : Service) (run : Run) : Prop where
  reach : Reach (Run.step job.platform) Timely (.init r now) run
  log : run.log = ticksIn s.log
  sampled : run.sampled ≤ s.clock
  reporter : s.stage.Matches s.reporter s.clock run

/-- An interval after the clock is still a `Duration`. -/
def Representable (s : Service) (_ : Move) : Prop :=
  s.clock.nanos + s.reporter.interval.nanos ≤ maxNanos

namespace Ticks

variable {job : Job} {r : Reporter} {now : Duration} {s t : Service} {run : Run}

/-- A step within a call, or between two of them. -/
theorem keep (h : Ticks job r now s run) (hclock : s.clock ≤ t.clock)
    (hlog : ticksIn t.log = ticksIn s.log) (hreporter : t.stage.Matches t.reporter t.clock run) :
    Ticks job r now t run :=
  ⟨h.reach, h.log.trans hlog.symm, h.sampled.trans hclock, hreporter⟩

/-- The end of a call. -/
theorem call (h : Ticks job r now s run) (haccepted : Accepted job.platform run.reporter.cfg)
    {turn : Turn} {r' : Reporter} {goOn : Bool} {event : Event}
    (hcalled : Called run.reporter turn r' goOn event) (htimely : Timely run turn)
    (hlog : ticksIn t.log = ticksIn s.log ++ [event])
    (hsampled : event.sample.getD run.sampled ≤ t.clock)
    (hreporter : t.stage.Matches t.reporter t.clock (run.after turn r' event)) :
    Ticks job r now t (run.after turn r' event) := by
  have hstep : run.step job.platform turn = some (run.after turn r' event) := by
    rw [Run.step, tick_of_called haccepted hcalled]
    rfl
  exact ⟨h.reach.snoc htimely hstep, by rw [hlog, ← h.log]; rfl, hsampled, hreporter⟩

/-- A call that meets `due` and `done`, with the given connection. -/
def turnAt (maintained connected : Bool) (due done : Duration) : Turn :=
  ⟨maintained, due, connected, smallHost, fun _ => true, done⟩

theorem plain (h : Ticks job r now s run) (haccepted : Accepted job.platform run.reporter.cfg)
    (hinterval : run.reporter.interval = s.reporter.interval)
    (hrepresentable : s.clock.nanos + s.reporter.interval.nanos ≤ maxNanos)
    (hplain : Plain job s t) : ∃ run', Ticks job r now t run' := by
  have hreporter := h.reporter
  have hclock : t.clock = s.clock := by
    obtain ⟨hsystem, hepoch, -⟩ := hplain.frame
    rw [clock, clock, hsystem, hepoch]
  have htimely {maintained connected : Bool} {due : Duration} (hsampled : run.sampled ≤ due)
      (hdue : due ≤ s.clock) : Timely run (turnAt maintained connected due s.clock) :=
    ⟨hsampled, hdue, by rw [hinterval]; exact hrepresentable⟩
  cases hplain with
  | ready hstage | readyOnce hstage =>
    rw [hstage] at hreporter
    exact ⟨run, h.keep hclock.ge rfl hreporter⟩
  | refused | quit | interrupted | ended | poisoned => exact ⟨run, h.keep hclock.ge rfl trivial⟩
  | failed hstage =>
    rw [hstage] at hreporter
    have hreporter : s.reporter = run.reporter := hreporter
    have hcalled : Called run.reporter (turnAt false false s.clock s.clock) _ _ .failed :=
      .failed rfl
    refine ⟨_, h.call haccepted hcalled (htimely h.sampled le_rfl) ?_ ?_ ?_⟩
    · rw [fail]
      split <;> simp [leave, note]
    · rw [hclock]
      exact h.sampled
    · rw [fail]
      split
      · exact congrArg (fun r : Reporter => { r with failures := r.failures + 1 }) hreporter
      · trivial
  | due hstage _ hdue =>
    rw [hstage] at hreporter
    have hreporter : s.reporter = run.reporter := hreporter
    exact ⟨run, h.keep hclock.ge rfl ⟨hreporter, hreporter ▸ hdue, h.sampled, le_rfl⟩⟩
  | early hstage _ hearly =>
    rw [hstage] at hreporter
    have hreporter : s.reporter = run.reporter := hreporter
    have hcalled : Called run.reporter (turnAt true false s.clock s.clock) _ true (.idle s.clock) :=
      .early rfl (hreporter ▸ hearly)
    refine ⟨_, h.call haccepted hcalled (htimely h.sampled le_rfl) (ticksIn_tick _ _) hclock.ge ?_⟩
    change _ = _
    rw [succeed, hreporter]
    rfl
  | connected hstage =>
    rw [hstage] at hreporter
    exact ⟨run, h.keep hclock.ge rfl hreporter⟩
  | skips hstage _ hpending =>
    rw [hstage] at hreporter
    obtain ⟨hreporter, hnext, hsampled, hdue⟩ := hreporter
    exact ⟨run, h.keep hclock.ge rfl
      ⟨hreporter, hnext, hsampled, hdue, hreporter ▸ hpending⟩⟩
  | @waits due hstage hconn hpending =>
    rw [hstage] at hreporter
    obtain ⟨hreporter, hnext, hsampled, hdue⟩ := hreporter
    have hcalled : Called run.reporter (turnAt true false due s.clock) _ true (.idle due) :=
      .waits rfl hnext rfl (hreporter ▸ hpending)
    refine ⟨_, h.call haccepted hcalled (htimely hsampled hdue) (ticksIn_tick _ _)
      (hdue.trans hclock.ge) ?_⟩
    change _ = _
    rw [succeed, hreporter]
    rfl
  | @report purpose _ _ _ hstage =>
    rw [hstage] at hreporter
    cases purpose <;> exact ⟨run, h.keep hclock.ge rfl hreporter⟩
  | reported hstage =>
    rw [hstage] at hreporter
    obtain ⟨hreporter, hdue⟩ := hreporter
    exact ⟨run, h.keep hclock.ge rfl ⟨congrArg
      (fun r : Reporter => { r with reports := r.reports + 1, firstPending := false }) hreporter,
      hdue⟩⟩
  | reportedOnce => exact ⟨run, h.keep hclock.ge rfl trivial⟩
  | @scheduled due reported hstage =>
    rw [hstage] at hreporter
    cases reported with
    | true =>
      obtain ⟨hreporter, hnext, hsampled, hdue⟩ := hreporter
      have hcalled : Called run.reporter (turnAt true true due s.clock) _ true
          (.reported due s.clock) := .reported rfl hnext rfl
      refine ⟨_, h.call haccepted hcalled (htimely hsampled hdue) (ticksIn_tick _ _) hclock.ge ?_⟩
      change _ = _
      rw [succeed, hreporter]
      rfl
    | false =>
      obtain ⟨hreporter, hnext, hsampled, hdue, hpending⟩ := hreporter
      have hcalled : Called run.reporter (turnAt true false due s.clock) _ true
          (.skipped due s.clock) := .skipped rfl hnext rfl hpending
      refine ⟨_, h.call haccepted hcalled (htimely hsampled hdue) (ticksIn_tick _ _) hclock.ge ?_⟩
      change _ = _
      rw [succeed, hreporter]
      rfl
  | pauses hstage | woken hstage | polls hstage | found hstage | dozed hstage =>
    rw [hstage] at hreporter
    exact ⟨run, h.keep hclock.ge rfl hreporter⟩

/-- **Every step of the program is within a call, or ends one.** -/
theorem step {m : Move} (h : Ticks job r now s run)
    (haccepted : Accepted job.platform run.reporter.cfg)
    (hinterval : run.reporter.interval = s.reporter.interval) (hrepresentable : Representable s m)
    (hwent : Went job s m t) : ∃ run', Ticks job r now t run' := by
  have hclock := hwent.clock_le
  cases hwent with
  | publisher => exact ⟨run, h.keep hclock (ticksIn_append _ _) (h.reporter.mono hclock _)⟩
  | signal => exact ⟨run, h.keep hclock rfl h.reporter⟩
  | plain _ hplain => exact h.plain haccepted hinterval hrepresentable hplain
  | @call host a next system hidle hcalls hs =>
    refine ⟨run, h.keep hclock (ticksIn_append _ _) ?_⟩
    have hreporter := h.reporter
    generalize s.stage = stage at hreporter hcalls
    cases hcalls with
    | start | maintain => exact hreporter
    | @publish purpose =>
      have hlater := hreporter.mono hclock .start
      cases purpose <;> exact hlater
    | stop | drop => trivial

end Ticks

/-! ## Reports and their calls -/

/-- The calls of `tick` that are on record as reports. -/
def reportedIn (log : List Entry) : List (Duration × Duration) :=
  (ticksIn log).filterMap Event.report

@[simp] theorem reportedIn_tick (e : Event) (log : List Entry) :
    reportedIn (.tick e :: log) = reportedIn log ++ e.report.toList := by
  rw [reportedIn, ticksIn_tick, List.filterMap_append, reportedIn]
  cases h : e.report <;> simp [h]

@[simp] theorem reportedIn_append (log : List Entry) (es : List SessionEvent) :
    reportedIn (es.map .session ++ log) = reportedIn log := by
  rw [reportedIn, ticksIn_append, reportedIn]

/-- The slots among the calls of `tick` that are on record. -/
def slotsIn (log : List Entry) : List (Duration × Duration) :=
  (ticksIn log).filterMap Event.slot

/-- A report is on record whose call is not: it is being made, or a panic has cut it off, or it is
the one of `--once`, which no call makes. -/
def Ahead (job : Job) (s : Service) : Prop :=
  s.stage.isReporting = true ∨ s.stage = .panicked ∨ s.stage.isOver = true ∧ job.once.isSome = true

/-- The reports that have been made are those whose call is over, and at most one that is ahead. -/
def Counts (job : Job) (s : Service) : Prop :=
  (reportsIn s.log).length = (reportedIn s.log).length ∧ s.stage.isReporting = false ∨
    (reportsIn s.log).length = (reportedIn s.log).length + 1 ∧ s.Ahead job

namespace Counts

variable {job : Job} {s t : Service}

/-- Between two reports, none is ahead. -/
theorem even (h : s.Counts job) (hreporting : s.stage.isReporting = false)
    (hover : s.stage.isOver = false) :
    (reportsIn s.log).length = (reportedIn s.log).length := by
  rcases h with ⟨heven, -⟩ | ⟨-, hahead | hahead | ⟨hahead, -⟩⟩
  · exact heven
  · rw [hreporting] at hahead
    cases hahead
  · rw [hahead] at hover
    cases hover
  · rw [hover] at hahead
    cases hahead

/-- While a report is made, it is ahead. -/
theorem odd (h : s.Counts job) (hreporting : s.stage.isReporting = true) :
    (reportsIn s.log).length = (reportedIn s.log).length + 1 := by
  rcases h with ⟨-, hnot⟩ | ⟨hodd, -⟩
  · rw [hreporting] at hnot
    cases hnot
  · exact hodd

/-- A step that neither begins nor ends a report. -/
theorem keep (h : s.Counts job) (hreporting : t.stage.isReporting = s.stage.isReporting)
    (hahead : s.Ahead job → t.Ahead job) (hreports : reportsIn t.log = reportsIn s.log)
    (hreported : reportedIn t.log = reportedIn s.log) : t.Counts job := by
  rw [Counts, hreporting, hreports, hreported]
  exact h.imp_right fun h => ⟨h.1, hahead h.2⟩

theorem plain (h : s.Counts job) (honce : s.stage.isOnce = true → job.once.isSome = true)
    (hplain : Plain job s t) : t.Counts job := by
  cases hplain with
  | ready hstage | readyOnce hstage | refused hstage | quit hstage | due hstage | connected hstage
  | skips hstage | pauses hstage | woken hstage | polls hstage | interrupted hstage | found hstage
  | dozed hstage =>
    exact .inl ⟨h.even (by rw [hstage]; rfl) (by rw [hstage]; rfl), rfl⟩
  | failed hstage =>
    have heven := h.even (by rw [hstage]; rfl) (by rw [hstage]; rfl)
    have hfailed : reportedIn (.tick .failed :: s.log) = reportedIn s.log := by simp [Event.report]
    rw [fail]
    split <;> exact .inl ⟨heven.trans (congrArg List.length hfailed.symm), rfl⟩
  | early hstage | waits hstage =>
    have heven := h.even (by rw [hstage]; rfl) (by rw [hstage]; rfl)
    exact .inl ⟨by simpa [Event.report, succeed] using heven, rfl⟩
  | report hstage =>
    have heven := h.even (by rw [hstage]; rfl) (by rw [hstage]; rfl)
    exact .inr ⟨by simpa [reportedIn] using heven, .inl rfl⟩
  | reported hstage => exact .inr ⟨h.odd (by rw [hstage]; rfl), .inl rfl⟩
  | reportedOnce hstage =>
    exact .inr ⟨h.odd (by rw [hstage]; rfl), .inr (.inr ⟨rfl, honce (by rw [hstage]; rfl)⟩)⟩
  | @scheduled due reported hstage =>
    cases reported with
    | true =>
      have hodd := h.odd (by rw [hstage]; rfl)
      exact .inl ⟨by simpa [succeed, Event.report] using hodd, rfl⟩
    | false =>
      have heven := h.even (by rw [hstage]; rfl) (by rw [hstage]; rfl)
      exact .inl ⟨by simpa [succeed, Event.report] using heven, rfl⟩
  | ended hstage =>
    refine h.keep (by rw [hstage]; rfl) ?_ rfl rfl
    rintro (hahead | hahead | ⟨-, honce⟩)
    · rw [hstage] at hahead
      cases hahead
    · rw [hstage] at hahead
      cases hahead
    · exact .inr (.inr ⟨rfl, honce⟩)
  | poisoned =>
    exact h.imp (fun h => ⟨h.1, rfl⟩) fun h => ⟨h.1, .inr (.inl rfl)⟩

theorem step {m : Move} (h : s.Counts job) (honce : s.stage.isOnce = true → job.once.isSome = true)
    (hwent : Went job s m t) : t.Counts job := by
  cases hwent with
  | @publisher a =>
    obtain ⟨hreporting, hover⟩ := Stage.isReporting_heard s.stage a
    refine h.keep hreporting ?_ (reportsIn_append _ _) (reportedIn_append _ _)
    rintro (hahead | hahead | ⟨hahead, honce⟩)
    · exact .inl (hreporting.trans hahead)
    · exact .inr (.inl (by rw [after, hahead]; rfl))
    · exact .inr (.inr ⟨hover.trans hahead, honce⟩)
  | signal => exact h
  | plain _ hplain => exact h.plain honce hplain
  | @call host a next system hidle hcalls hs =>
    generalize hstage : s.stage = stage at hcalls
    cases hcalls with
    | start | maintain =>
      have heven := h.even (by rw [hstage]; rfl) (by rw [hstage]; rfl)
      exact .inl ⟨by simpa [after] using heven, rfl⟩
    | publish =>
      have hodd := h.odd (by rw [hstage]; rfl)
      exact .inr ⟨by simpa [after] using hodd, .inl rfl⟩
    | stop | drop =>
      refine h.keep (by rw [hstage]; rfl) ?_ (reportsIn_append _ _) (reportedIn_append _ _)
      rintro (hahead | hahead | ⟨-, honce⟩)
      · rw [hstage] at hahead
        cases hahead
      · rw [hstage] at hahead
        cases hahead
      · exact .inr (.inr ⟨rfl, honce⟩)

end Counts

theorem ticks_init (job : Job) (r : Reporter) (built epoch now : Duration) :
    Ticks job r (now.saturatingSub epoch) (init job r built epoch now)
      (.init r (now.saturatingSub epoch)) :=
  ⟨.refl, rfl, le_rfl, rfl⟩

theorem ticks_of_reach {job : Job} {r : Reporter} {built epoch now : Duration} {s : Service}
    (haccepted : Accepted job.platform r.cfg) (hfailures : r.failures = 0)
    (hfollows : Follows r (.init r (now.saturatingSub epoch)))
    (h : Reach (step job) Representable (init job r built epoch now) s) :
    (∃ run, Ticks job r (now.saturatingSub epoch) s run) ∧ s.Counts job := by
  induction h with
  | refl => exact ⟨⟨_, ticks_init job r built epoch now⟩, .inl ⟨rfl, rfl⟩⟩
  | @snoc s t m hr hc hs ih =>
    obtain ⟨⟨run, hticks⟩, hcounts⟩ := ih
    have hwent := went_of_reach haccepted hr hs
    have hrun := follows_of_reach haccepted hfollows hticks.reach
    have hinterval : run.reporter.interval = s.reporter.interval :=
      hrun.interval.trans (frame_of_reach haccepted hr).2.2.symm
    have honce := (lives_of_reach haccepted hfailures hr).once
    exact ⟨hticks.step (by rw [hrun.cfg]; exact haccepted) hinterval hc hwent,
      hcounts.step honce hwent⟩

end Service

/-- **The program keeps the schedule.**  In every run of the program on a clock that stays
representable, whatever the network, the signals and the files below `/proc` do: the calls of `tick`
are a run of the schedule, on the reporter's clock; a slot begins at least an interval after the end
of the one before, whether it is used or skipped, and so do the reports; each report that is made
belongs to one of these calls, except for the one that is being made or is cut off by a panic, and
the one of `--once`; and at the head of the loop the next slot is at most an interval away. -/
theorem program_follows_schedule (lib : SerdeYaml) (job : Job) (yaml hostname : String) (env : Env)
    (cfg : Config) (hcfg : fromYaml lib job.platform yaml hostname env = .ok cfg)
    (built epoch now : Duration) (r : Reporter)
    (hr : withIo cfg (now.saturatingSub epoch) = .ok r) (s : Service)
    (hs : Reach (Service.step job) Service.Representable (.init job r built epoch now) s) :
    (∃ run, Reach (Run.step job.platform) Timely (.init r (now.saturatingSub epoch)) run ∧
      run.log = ticksIn s.log) ∧
    ((Service.slotsIn s.log).Pairwise fun a b => a.2.nanos + r.interval.nanos ≤ b.1.nanos) ∧
    ((Service.reportedIn s.log).Pairwise fun a b => a.2.nanos + r.interval.nanos ≤ b.1.nanos) ∧
    ((reportsIn s.log).length = (Service.reportedIn s.log).length ∨
      (reportsIn s.log).length = (Service.reportedIn s.log).length + 1 ∧ s.Ahead job) ∧
    (s.stage = .looping → s.reporter.next.nanos ≤ s.clock.nanos + r.interval.nanos) := by
  obtain ⟨haccepted, -⟩ := accepted_of_fromYaml hcfg
  obtain ⟨rfl, hinit⟩ := follows_of_withIo hr
  obtain ⟨⟨run, hticks⟩, hcounts⟩ :=
    Service.ticks_of_reach haccepted (counts_of_withIo hr).1 hinit hs
  have hfollows := follows_of_reach haccepted hinit hticks.reach
  have hspaced : (Service.slotsIn s.log).Pairwise fun a b =>
      a.2.nanos + r.interval.nanos ≤ b.1.nanos := by
    rw [Service.slotsIn, ← hticks.log]
    exact hfollows.spaced
  refine ⟨⟨run, hticks.reach, hticks.log⟩, hspaced, hspaced.sublist (reports_sublist_slots _),
    hcounts.imp_left And.left, fun hstage => ?_⟩
  have hreporter := hticks.reporter
  rw [hstage] at hreporter
  have hreporter : s.reporter = run.reporter := hreporter
  rw [hreporter]
  exact hfollows.next_le.trans (Nat.add_le_add_right hticks.sampled _)

/-- In the first ten minutes an interval of ten minutes stays representable. -/
theorem Service.representable_of_until {s u : Service} {later : Duration} {m : Move}
    (hinterval : s.reporter.interval = .fromSecs 600) (hlater : later ≤ .fromSecs 600)
    (hu : s.Until later u) : Representable u m := by
  have hnow : u.system.now.nanos ≤ 600000000000 := Duration.le_def.1 (hu.now.trans hlater)
  have hsum : u.clock.nanos + (Duration.fromSecs 600).nanos ≤ 1200000000000 := by
    rw [clock, Duration.nanos_saturatingSub]
    exact Nat.add_le_add ((Nat.sub_le _ _).trans hnow) le_rfl
  rw [Representable, hu.interval, hinterval]
  exact hsum.trans (by decide)

/-- The program has a connection for the first slot and for the next. -/
theorem Service.reach_twoSlots (r : Reporter) (haccepted : Accepted .empty r.cfg)
    (hinterval : r.interval = .fromSecs 600) (hnext : r.next = .zero) :
    ∃ s, Reach (step loopJob) Representable (init loopJob r .zero .zero .zero) s ∧
      slotsIn s.log = [(.zero, .zero), (.fromSecs 600, .fromSecs 600)] ∧
      (reportsIn s.log).length = 2 := by
  obtain ⟨s, hs, hfree, rfl, hepoch, hnow, hlog⟩ := reach_ready (C := Representable) loopJob r .zero
    .zero .zero (fun u m => representable_of_until hinterval (by decide)) rfl
  have hclock : s.clock = .zero := by rw [clock, hnow, hepoch]; rfl
  obtain ⟨messages, es, t, ht, hfree', hreporter', hepoch', hnow', hlog'⟩ :=
    reach_slot (C := Representable) loopJob (.fromSecs 600) hfree haccepted
      (fun u m => representable_of_until hinterval le_rfl) (by rw [hnext]; exact Nat.zero_le _)
      (by rw [hnow]; decide) smallHost
  have hclock' : t.clock = .fromSecs 600 := by rw [clock, hnow', hepoch', hepoch]; rfl
  have hnext' : t.reporter.next = .fromSecs 600 := by
    rw [hreporter']
    exact congrArg₂ Duration.saturatingAdd hclock hinterval
  obtain ⟨messages', system, es', hreturned, hu⟩ := reach_ticked (C := Representable) loopJob hfree'
    (by rw [hreporter']; exact haccepted)
    (fun u m => representable_of_until (by rw [hreporter']; exact hinterval) hnow'.le)
    (by rw [hnext', hclock']) smallHost
  refine ⟨_, (hs.trans ht).trans hu, ?_, ?_⟩
  · have hinit : ticksIn s.log = [] := by rw [hlog]; rfl
    simp [slotsIn, hlog', hinit, hclock, hclock', Event.slot]
  · have hinit : reportsIn s.log = [] := by rw [hlog]; rfl
    simp [hlog', hinit]

/-- Two slots, ten minutes apart, on a connection. -/
theorem program_follows_schedule_twoSlots : ∃ cfg r s run,
    fromYaml .defaultsOnly .empty "" "host" (fun _ => none) = .ok cfg ∧
      withIo cfg .zero = .ok r ∧
      Reach (Service.step loopJob) Service.Representable (.init loopJob r .zero .zero .zero) s ∧
      Service.slotsIn s.log = [(.zero, .zero), (.fromSecs 600, .fromSecs 600)] ∧
      (reportsIn s.log).length = 2 ∧
      Reach (Run.step .empty) Timely (.init r .zero) run ∧ run.log = ticksIn s.log := by
  obtain ⟨cfg, r, hcfg, hr, hrcfg, -, haccepted, hinterval, hnext, -⟩ := withIo_defaultsOnly
  obtain ⟨s, hs, hslots, hreports⟩ :=
    Service.reach_twoSlots r (hrcfg ▸ haccepted) hinterval hnext
  obtain ⟨⟨run, hrun, hrunlog⟩, -⟩ := program_follows_schedule _ loopJob _ _ _ cfg hcfg .zero .zero
    .zero r hr s hs
  exact ⟨cfg, r, s, run, hcfg, hr, hs, hslots, hreports, hrun, hrunlog⟩

end SystemReport
