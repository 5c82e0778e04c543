import SystemReport.Mqtt.Progress
import SystemReport.Mqtt.Sessions
import SystemReport.Reporter.Loop

/-!
# The service

What `run` in `src/main.rs` does from `publisher.start()` on, as one machine: the main thread with
its reporter, the publisher it calls, the network thread, the clock, and the signals.  `Stage` says
what the main thread does next whenever it is not inside a method of the publisher; the steps within
a method, those of the network thread and those of time are steps of `Mqtt.System`.

The reporter and the publisher share the clock, but each counts from an epoch of its own; `epoch` is
the reporter's on the clock of the publisher.
-/

set_option autoImplicit false

open Machine

namespace SystemReport

open Mqtt Reporter Config Collectors

/-- Why a report is made: by `cycle`, which found it due, or for `--once`. -/
inductive Purpose
  | cycle (due : Duration)
  | once
deriving DecidableEq

/-- What the main thread does next. -/
inductive Stage
  /-- it calls `start()` -/
  | starting
  /-- `start()` has returned -/
  | started
  /-- the loop looks whether it is to stop -/
  | looping
  /-- `maintain()` has returned; the flag says that it had to rebuild the client -/
  | maintained (rebuilt : Bool)
  /-- a report is due, and `cycle` looks for a connection -/
  | due (due : Duration)
  /-- `report_once` collects -/
  | reporting (purpose : Purpose)
  /-- `report_once` publishes what is left to do -/
  | publishing (purpose : Purpose) (total completed : ℕ) (todo : List (String × String))
  /-- the next slot is scheduled, after a report or after one that is skipped -/
  | scheduling (due : Duration) (reported : Bool)
  /-- `tick` has returned `true` -/
  | ticked
  /-- the loop waits -/
  | waiting (since d : Duration)
  /-- `--once` looks for a connection -/
  | awaiting (since : Duration)
  /-- `--once` waits before it looks again -/
  | dozing (since from' d : Duration)
  /-- it calls `stop()` -/
  | leaving (status : ℤ)
  /-- `run` returns, which drops the publisher -/
  | stopped (status : ℤ)
  /-- the publisher is dropped -/
  | dropped (status : ℤ)
  | ended (status : ℤ)
  | panicked
deriving DecidableEq

/-- A notification for systemd. -/
inductive Note
  | ready
  | watchdog
  | status (reports : UInt64) (completed total : ℕ) (connected : Bool)
  | stopping
deriving DecidableEq

/-- For the record: what the main thread does, and what becomes of its messages. -/
inductive Entry
  | session (e : SessionEvent)
  | note (n : Note)
  /-- a report is made, of the files below `/proc` as they are, and consists of these messages -/
  | report (host : Host) (messages : List (String × String))
  /-- `tick` has returned -/
  | tick (e : Reporter.Event)

/-- The sessions in the record, with the latest event first. -/
def sessionsIn (log : List Entry) : List SessionEvent :=
  log.filterMap fun
    | .session e => some e
    | _ => none

/-- The reports in the record, in order, each with the files that it was made of. -/
def madeIn (log : List Entry) : List (Host × List (String × String)) :=
  (log.filterMap fun
    | .report host messages => some (host, messages)
    | _ => none).reverse

/-- The reports in the record, in order. -/
def reportsIn (log : List Entry) : List (List (String × String)) := (madeIn log).map Prod.snd

/-- What the calls of `tick` came to, in order. -/
def ticksIn (log : List Entry) : List Reporter.Event :=
  (log.filterMap fun
    | .tick e => some e
    | _ => none).reverse

section Log

variable (log : List Entry)

@[simp] theorem sessionsIn_note (n : Note) : sessionsIn (.note n :: log) = sessionsIn log := rfl
@[simp] theorem sessionsIn_report (host : Host) (messages : List (String × String)) :
    sessionsIn (.report host messages :: log) = sessionsIn log := rfl
@[simp] theorem sessionsIn_tick (e : Reporter.Event) :
    sessionsIn (.tick e :: log) = sessionsIn log := rfl

@[simp] theorem sessionsIn_append (es : List SessionEvent) :
    sessionsIn (es.map .session ++ log) = es ++ sessionsIn log := by
  induction es with
  | nil => rfl
  | cons e es ih => exact congrArg (e :: ·) ih

@[simp] theorem reportsIn_note (n : Note) : reportsIn (.note n :: log) = reportsIn log := rfl
@[simp] theorem reportsIn_tick (e : Reporter.Event) : reportsIn (.tick e :: log) = reportsIn log := rfl

@[simp] theorem madeIn_note (n : Note) : madeIn (.note n :: log) = madeIn log := rfl
@[simp] theorem madeIn_tick (e : Reporter.Event) : madeIn (.tick e :: log) = madeIn log := rfl

@[simp] theorem madeIn_report (host : Host) (messages : List (String × String)) :
    madeIn (.report host messages :: log) = madeIn log ++ [(host, messages)] := by
  simp [madeIn]

@[simp] theorem madeIn_append (es : List SessionEvent) :
    madeIn (es.map .session ++ log) = madeIn log := by
  induction es with
  | nil => rfl
  | cons e es ih => exact ih

@[simp] theorem reportsIn_report (host : Host) (messages : List (String × String)) :
    reportsIn (.report host messages :: log) = reportsIn log ++ [messages] := by
  simp [reportsIn]

@[simp] theorem reportsIn_append (es : List SessionEvent) :
    reportsIn (es.map .session ++ log) = reportsIn log := by
  rw [reportsIn, madeIn_append, reportsIn]

@[simp] theorem ticksIn_note (n : Note) : ticksIn (.note n :: log) = ticksIn log := rfl
@[simp] theorem ticksIn_report (host : Host) (messages : List (String × String)) :
    ticksIn (.report host messages :: log) = ticksIn log := rfl

@[simp] theorem ticksIn_tick (e : Reporter.Event) :
    ticksIn (.tick e :: log) = ticksIn log ++ [e] := by
  simp [ticksIn]

@[simp] theorem ticksIn_append (es : List SessionEvent) :
    ticksIn (es.map .session ++ log) = ticksIn log := by
  induction es with
  | nil => rfl
  | cons e es ih => exact ih

end Log

/-- What `run` works with and does not change. -/
structure Job where
  platform : Platform
  set : Settings
  notifier : Notifier
  /-- with `--once`, how long it waits for a connection -/
  once : Option Duration

/-- The program after `Reporter::new`.  The record is kept with the latest entry first. -/
structure Service where
  reporter : Reporter
  system : System
  epoch : Duration
  stop : Bool
  stage : Stage
  log : List Entry

/-- One step of the program or of its environment. -/
inductive Move
  /-- within a method of the publisher, or of the network thread, or of time -/
  | publisher (a : Act)
  /-- `SIGTERM` or `SIGINT` arrives -/
  | signal
  /-- of the main thread, with the files below `/proc` as they are -/
  | go (host : Host)

/-- `f64::min`, where neither is a NaN. -/
def minF64 (a b : F64) : F64 := if b.lt a then b else a

/-- How long `--once` waits before it looks again: at most a quarter of a second. -/
def pollDelay (notifier : Notifier) : Option Duration :=
  Duration.tryFromSecsF64 (minF64 (notifier.watchdogIntervalSecs.getD (.finite (1 / 4)))
    (.finite (1 / 4)))

/-- What a verdict does to the count of the running report. -/
def Stage.heard : Stage → Act → Stage
  | .publishing purpose total completed todo, .verdict true =>
    .publishing purpose total (completed + 1) todo
  | stage, _ => stage

/-- The main thread reads the connection flag in a lock section. -/
def Stage.locks : Stage → Bool
  | .due _ | .publishing _ _ _ [] | .awaiting _ => true
  | _ => false

theorem Stage.heard_publishing (purpose : Purpose) (total completed : ℕ)
    (todo : List (String × String)) (a : Act) :
    (publishing purpose total completed todo).heard a = publishing purpose total completed todo ∨
      (publishing purpose total completed todo).heard a =
        publishing purpose total (completed + 1) todo := by
  rcases a with _ | _ | _ | _ | _ | _ | _ | (_ | _) | _ | _ | _ | _ | _ | _ | _
  case verdict.true => exact .inr rfl
  all_goals exact .inl rfl

/-- What is left to publish of the running report. -/
def Stage.todo : Stage → List (String × String)
  | .publishing _ _ _ todo => todo
  | _ => []

@[simp] theorem Stage.todo_heard (stage : Stage) (a : Act) : (stage.heard a).todo = stage.todo := by
  rcases stage with _ | _ | _ | _ | _ | _ | _ | _ | _ | _ | _ | _ | _ | _ | _ | _ | _ <;>
    rcases a with _ | _ | _ | _ | _ | _ | _ | (_ | _) | _ | _ | _ | _ | _ | _ | _ <;> rfl

namespace Service

/-- Before `start()`, with the publisher's clock when it was built and as it is. -/
def init (job : Job) (r : Reporter) (built epoch now : Duration) : Service where
  reporter := r
  system := { System.init job.set built with now := now }
  epoch := epoch
  stop := false
  stage := .starting
  log := []

/-- The reporter's clock. -/
def clock (s : Service) : Duration := s.system.now.saturatingSub s.epoch

/-- What a step of the publisher leaves. -/
def after (s : Service) (a : Act) (system : System) (stage : Stage) : Service :=
  { s with
    system := system
    stage := stage
    log := (s.system.sessionEvents a system).map .session ++ s.log }

/-- Nothing is logged by a step that makes no message and is not the network thread's. -/
theorem log_after {set : Settings} {s : Service} {a : Act} {system : System}
    (hs : s.system.step set a = some system) (ha : ∀ i, a ≠ .worker i)
    (hbegins : system.begins a = []) (stage : Stage) : (s.after a system stage).log = s.log := by
  rw [after, System.sessionEvents_eq hs ha, hbegins]
  rfl

/-- The main thread calls a method of the publisher. -/
def call (job : Job) (s : Service) (a : Act) (stage : System → Stage) : Option Service :=
  (s.system.step job.set a).map fun system => s.after a system (stage system)

/-- `connected()`, which panics if the lock is poisoned. -/
def locked (s next : Service) : Service :=
  if s.system.poisoned then { s with stage := .panicked } else next

def note (s : Service) (n : Note) : Service := { s with log := .note n :: s.log }

/-- The end of a run that was started: `stopping()`, and then `publisher.stop()`. -/
def leave (s : Service) (status : ℤ) : Service :=
  { s.note .stopping with stage := .leaving status }

/-- `tick`, when `cycle` succeeds. -/
def succeed (s : Service) (r : Reporter) (e : Reporter.Event) : Service :=
  { s with reporter := { r with failures := 0 }, stage := .ticked, log := .tick e :: s.log }

/-- `tick`, when `cycle` fails, and what `run` makes of it. -/
def fail (s : Service) : Service :=
  let failures := s.reporter.failures + 1
  let counted : Service :=
    { s with reporter := { s.reporter with failures }, log := .tick .failed :: s.log }
  if failures < maxConsecutiveCycleFailures then { counted with stage := .ticked }
  else counted.leave 1

/-- What the main thread does, from its stage. -/
def go (job : Job) (s : Service) (host : Host) : Option Service :=
  match s.stage with
  | .starting => s.call job .start fun _ => .started
  | .started =>
    some <|
      if s.system.lastStart = some true then
        match job.once with
        | none => { s.note .ready with stage := .looping }
        | some _ => { s.note .ready with stage := .awaiting s.system.now }
      else { s with stage := .stopped 1 }
  | .looping =>
    if s.stop then some (s.leave 0)
    else s.call job .maintain fun system => .maintained (system.pc = .signalling .start)
  | .maintained rebuilt =>
    some <|
      if rebuilt && s.system.lastStart != some true then s.fail
      else if (s.reporter.secondsUntilDue s.clock).isZero then { s with stage := .due s.clock }
      else s.succeed s.reporter (.idle s.clock)
  | .due due =>
    some <| s.locked <|
      if s.system.connected then { s with stage := .reporting (.cycle due) }
      else if !s.reporter.firstPending then { s with stage := .scheduling due false }
      else s.succeed s.reporter (.idle due)
  | .reporting purpose =>
    some <|
      match collect s.reporter.cfg host >>= messagesFor job.platform s.reporter.cfg with
      | .ok messages =>
        { s with
          stage := .publishing purpose messages.length 0 messages
          log := .report host messages :: s.log }
      | .err _ =>
        match purpose with
        | .cycle _ => s.fail
        | .once => s.leave 1
      | .panicked => { s with stage := .panicked }
  | .publishing purpose total completed ((topic, payload) :: todo) =>
    s.call job (.publish topic payload none none) fun _ => .publishing purpose total completed todo
  | .publishing purpose total completed [] =>
    let reports := s.reporter.reports + 1
    let counted := { s with reporter := { s.reporter with reports } }
    some <| s.locked <|
      let told := counted.note (.status reports completed total s.system.connected)
      match purpose with
      | .cycle due =>
        { told with
          reporter := { told.reporter with firstPending := false }
          stage := .scheduling due true }
      | .once => told.leave 0
  | .scheduling due reported =>
    let now := s.clock
    some (s.succeed { s.reporter with next := now.saturatingAdd s.reporter.interval }
      (if reported then .reported due now else .skipped due now))
  | .ticked =>
    match s.reporter.sleepSecs job.notifier.watchdogIntervalSecs s.clock with
    | some d => some { s.note .watchdog with stage := .waiting s.system.now d }
    | none => some { s with stage := .panicked }
  | .waiting since d =>
    if s.stop ∨ d ≤ s.system.now.saturatingSub since then some { s with stage := .looping }
    else none
  | .awaiting since =>
    let elapsed := s.system.now.saturatingSub since
    let connectWait := job.once.getD .zero
    some <| s.locked <|
      if !s.system.connected ∧ elapsed < connectWait ∧ !s.stop then
        match pollDelay job.notifier with
        | some d =>
          { s.note .watchdog with
            stage := .dozing since s.system.now (min d (connectWait.saturatingSub elapsed)) }
        | none => { s.note .watchdog with stage := .panicked }
      else if s.stop then s.leave 0
      else { s with stage := .reporting .once }
  | .dozing since from' d =>
    if s.stop ∨ d ≤ s.system.now.saturatingSub from' then some { s with stage := .awaiting since }
    else none
  | .leaving status => s.call job .stop fun _ => .stopped status
  | .stopped status => s.call job .stop fun _ => .dropped status
  | .dropped status => some { s with stage := .ended status }
  | .ended _ | .panicked => none

/-- One step of the program or of its environment. -/
def step (job : Job) (s : Service) : Move → Option Service
  | .publisher a =>
    if a.settles || a.foreign then
      (s.system.step job.set a).map fun system => s.after a system (s.stage.heard a)
    else none
  | .signal => some { s with stop := true }
  | .go host => if s.system.pc = .idle then s.go job host else none

/-! ## What a step can do -/

/-- The calls of the publisher's methods, with the stage that each leads to. -/
inductive Calls (stop : Bool) : Stage → Act → (System → Stage) → Prop
  | start : Calls stop .starting .start fun _ => .started
  | maintain (hstop : stop = false) :
      Calls stop .looping .maintain fun system =>
        .maintained (decide (system.pc = .signalling .start))
  | publish {purpose : Purpose} {total completed : ℕ} {topic payload : String}
      {todo : List (String × String)} :
      Calls stop (.publishing purpose total completed ((topic, payload) :: todo))
        (.publish topic payload none none) fun _ => .publishing purpose total completed todo
  | stop {status : ℤ} : Calls stop (.leaving status) .stop fun _ => .stopped status
  | drop {status : ℤ} : Calls stop (.stopped status) .stop fun _ => .dropped status

/-- The steps of the main thread between those calls, with an accepted configuration. -/
inductive Plain (job : Job) (s : Service) : Service → Prop
  | ready (hstage : s.stage = .started) (hstart : s.system.lastStart = some true)
      (honce : job.once = none) : Plain job s { s.note .ready with stage := .looping }
  | readyOnce (hstage : s.stage = .started) (hstart : s.system.lastStart = some true)
      (honce : job.once.isSome = true) :
      Plain job s { s.note .ready with stage := .awaiting s.system.now }
  | refused (hstage : s.stage = .started) (hstart : s.system.lastStart ≠ some true) :
      Plain job s { s with stage := .stopped 1 }
  | quit (hstage : s.stage = .looping) (hstop : s.stop = true) : Plain job s (s.leave 0)
  | failed (hstage : s.stage = .maintained true) (hstart : s.system.lastStart ≠ some true) :
      Plain job s s.fail
  | due {rebuilt : Bool} (hstage : s.stage = .maintained rebuilt)
      (hstart : rebuilt = true → s.system.lastStart = some true)
      (hdue : s.reporter.next ≤ s.clock) : Plain job s { s with stage := .due s.clock }
  | early {rebuilt : Bool} (hstage : s.stage = .maintained rebuilt)
      (hstart : rebuilt = true → s.system.lastStart = some true)
      (hearly : s.clock < s.reporter.next) : Plain job s (s.succeed s.reporter (.idle s.clock))
  | connected {due : Duration} (hstage : s.stage = .due due) (hconn : s.system.connected = true) :
      Plain job s { s with stage := .reporting (.cycle due) }
  | skips {due : Duration} (hstage : s.stage = .due due) (hconn : s.system.connected = false)
      (hpending : s.reporter.firstPending = false) :
      Plain job s { s with stage := .scheduling due false }
  | waits {due : Duration} (hstage : s.stage = .due due) (hconn : s.system.connected = false)
      (hpending : s.reporter.firstPending = true) : Plain job s (s.succeed s.reporter (.idle due))
  | report {purpose : Purpose} {host : Host} {snapshot : Snapshot}
      {messages : List (String × String)} (hstage : s.stage = .reporting purpose)
      (hcollect : collect s.reporter.cfg host = .ok snapshot)
      (hmessages : messagesFor job.platform s.reporter.cfg snapshot = .ok messages) :
      Plain job s
        { s with
          stage := .publishing purpose messages.length 0 messages
          log := .report host messages :: s.log }
  | reported {due : Duration} {total completed : ℕ}
      (hstage : s.stage = .publishing (.cycle due) total completed []) :
      Plain job s
        { s.note (.status (s.reporter.reports + 1) completed total s.system.connected) with
          reporter :=
            { s.reporter with reports := s.reporter.reports + 1, firstPending := false }
          stage := .scheduling due true }
  | reportedOnce {total completed : ℕ} (hstage : s.stage = .publishing .once total completed []) :
      Plain job s
        (leave { s.note (.status (s.reporter.reports + 1) completed total s.system.connected) with
          reporter := { s.reporter with reports := s.reporter.reports + 1 } } 0)
  | scheduled {due : Duration} {reported : Bool} (hstage : s.stage = .scheduling due reported) :
      Plain job s
        (s.succeed { s.reporter with next := s.clock.saturatingAdd s.reporter.interval }
          (if reported then .reported due s.clock else .skipped due s.clock))
  | pauses {d : Duration} (hstage : s.stage = .ticked)
      (hsleep : s.reporter.sleepSecs job.notifier.watchdogIntervalSecs s.clock = some d) :
      Plain job s { s.note .watchdog with stage := .waiting s.system.now d }
  | woken {since d : Duration} (hstage : s.stage = .waiting since d)
      (hover : s.stop = true ∨ d ≤ s.system.now.saturatingSub since) :
      Plain job s { s with stage := .looping }
  | polls {since d : Duration} (hstage : s.stage = .awaiting since)
      (hconn : s.system.connected = false)
      (hearly : s.system.now.saturatingSub since < job.once.getD .zero) (hstop : s.stop = false) :
      Plain job s
        { s.note .watchdog with
          stage := .dozing since s.system.now
            (min d ((job.once.getD .zero).saturatingSub (s.system.now.saturatingSub since))) }
  | interrupted {since : Duration} (hstage : s.stage = .awaiting since) (hstop : s.stop = true) :
      Plain job s (s.leave 0)
  | found {since : Duration} (hstage : s.stage = .awaiting since) (hstop : s.stop = false)
      (hover : s.system.connected = true ∨
        job.once.getD .zero ≤ s.system.now.saturatingSub since) :
      Plain job s { s with stage := .reporting .once }
  | dozed {since from' d : Duration} (hstage : s.stage = .dozing since from' d)
      (hover : s.stop = true ∨ d ≤ s.system.now.saturatingSub from') :
      Plain job s { s with stage := .awaiting since }
  | ended {status : ℤ} (hstage : s.stage = .dropped status) :
      Plain job s { s with stage := .ended status }
  | poisoned (hstage : s.stage.locks = true) (hpoisoned : s.system.poisoned = true) :
      Plain job s { s with stage := .panicked }

/-- The steps of the program and its environment. -/
inductive Went (job : Job) (s : Service) : Move → Service → Prop
  | publisher {a : Act} {system : System} (ha : (a.settles || a.foreign) = true)
      (hs : s.system.step job.set a = some system) :
      Went job s (.publisher a) (s.after a system (s.stage.heard a))
  | signal : Went job s .signal { s with stop := true }
  | call {host : Host} {a : Act} {next : System → Stage} {system : System}
      (hidle : s.system.pc = .idle) (hcalls : Calls s.stop s.stage a next)
      (hs : s.system.step job.set a = some system) :
      Went job s (.go host) (s.after a system (next system))
  | plain {host : Host} {t : Service} (hidle : s.system.pc = .idle) (h : Plain job s t) :
      Went job s (.go host) t

variable {job : Job} {s t : Service}

theorem plain_locked {next : Service} (hstage : s.stage.locks = true) (h : Plain job s next) :
    Plain job s (s.locked next) := by
  rw [locked]
  split
  · exact .poisoned hstage ‹_›
  · exact h

/-- The wait of `--once` is a `Duration`. -/
theorem pollDelay_isSome (notifier : Notifier) : ∃ d, pollDelay notifier = some d := by
  have hquarter : ∃ d, Duration.tryFromSecsF64 (.finite (1 / 4)) = some d :=
    Option.isSome_iff_exists.1 (by decide +kernel)
  rw [pollDelay, minF64]
  split
  · exact hquarter
  · cases h : notifier.watchdogUsec with
    | none => simpa [Notifier.watchdogIntervalSecs, h] using hquarter
    | some usec =>
      have hpos := notifier.pos usec h
      obtain ⟨secs, hsecs, hnear⟩ := Notifier.watchdogIntervalSecs_near usec hpos
      obtain ⟨d, hd, -⟩ := Notifier.toDuration_watchdogIntervalSecs hnear hpos
      exact ⟨d, by rw [Notifier.watchdogIntervalSecs, h, Option.map_some, Option.getD_some, hsecs, hd]⟩

theorem went_of_call {host : Host} {a : Act} {next : System → Stage} (hidle : s.system.pc = .idle)
    (hcalls : Calls s.stop s.stage a next) (hs : s.call job a next = some t) :
    Went job s (.go host) t := by
  obtain ⟨system, hsystem, rfl⟩ := Option.map_eq_some_iff.1 hs
  exact .call hidle hcalls hsystem

/-- With an accepted configuration, the messages of a report can be made. -/
theorem exists_messages {platform : Platform} {cfg : Config} (h : Accepted platform cfg)
    (host : Host) : ∃ snapshot messages, collect cfg host = .ok snapshot ∧
      messagesFor platform cfg snapshot = .ok messages := by
  obtain ⟨plan, hplan⟩ := plan_of_shaped h.shaped
  obtain ⟨snapshot, hcollect, hmessages⟩ :=
    messagesFor_of_plan hplan host fun _ => meminfoTopic_of_plan h hplan
  exact ⟨snapshot, _, hcollect, hmessages⟩

/-- A report, once its messages are made. -/
theorem step_reporting {purpose : Purpose} {host : Host} {snapshot : Snapshot}
    {messages : List (String × String)} (hidle : s.system.pc = .idle)
    (hstage : s.stage = .reporting purpose) (hcollect : collect s.reporter.cfg host = .ok snapshot)
    (hmessages : messagesFor job.platform s.reporter.cfg snapshot = .ok messages) :
    s.step job (.go host) = some { s with
      stage := .publishing purpose messages.length 0 messages
      log := .report host messages :: s.log } := by
  rw [step, if_pos hidle, go]
  simp only [hstage, hcollect, Outcome.ok_bind, hmessages]

theorem plain_maintained {rebuilt : Bool} (hstage : s.stage = .maintained rebuilt) :
    Plain job s
      (if rebuilt && s.system.lastStart != some true then s.fail
      else if (s.reporter.secondsUntilDue s.clock).isZero then { s with stage := .due s.clock }
      else s.succeed s.reporter (.idle s.clock)) := by
  split
  · rename_i hfailed
    obtain ⟨rfl, hstart⟩ : rebuilt = true ∧ s.system.lastStart ≠ some true := by
      simpa using hfailed
    exact .failed hstage hstart
  · rename_i hok
    have hstart : rebuilt = true → s.system.lastStart = some true := by simpa using hok
    split
    · exact .due hstage hstart ((isZero_secondsUntilDue _ _).1 ‹_›)
    · rename_i hearly
      rw [isZero_secondsUntilDue] at hearly
      exact .early hstage hstart (lt_of_not_ge hearly)

theorem plain_due {due : Duration} (hstage : s.stage = .due due) :
    Plain job s
      (if s.system.connected then { s with stage := .reporting (.cycle due) }
      else if !s.reporter.firstPending then { s with stage := .scheduling due false }
      else s.succeed s.reporter (.idle due)) := by
  split
  · exact .connected hstage ‹_›
  · rename_i hconn
    have hconn : s.system.connected = false := by simpa using hconn
    split
    · exact .skips hstage hconn (by simpa using ‹(!s.reporter.firstPending) = true›)
    · exact .waits hstage hconn (by simpa using ‹¬(!s.reporter.firstPending) = true›)

/-- **Every step is one of these**, with an accepted configuration. -/
theorem went_of_step (haccepted : Accepted job.platform s.reporter.cfg) {m : Move}
    (hs : s.step job m = some t) : Went job s m t := by
  cases m with
  | publisher a =>
    obtain ⟨ha, hs⟩ := Option.ite_none_right_eq_some.1 hs
    obtain ⟨system, hsystem, rfl⟩ := Option.map_eq_some_iff.1 hs
    exact .publisher ha hsystem
  | signal =>
    cases hs
    exact .signal
  | go host =>
    obtain ⟨hidle, hs⟩ := Option.ite_none_right_eq_some.1 hs
    rw [go] at hs
    cases hstage : s.stage with
    | starting =>
      simp only [hstage] at hs
      exact went_of_call hidle (by rw [hstage]; exact .start) hs
    | started =>
      simp only [hstage, Option.some.injEq] at hs
      subst hs
      refine .plain hidle ?_
      split
      · cases honce : job.once with
        | none => exact .ready hstage ‹_› honce
        | some wait => exact .readyOnce hstage ‹_› (by rw [honce]; rfl)
      · exact .refused hstage ‹_›
    | looping =>
      simp only [hstage] at hs
      split at hs
      · cases hs
        exact .plain hidle (.quit hstage ‹_›)
      · rename_i hstop
        exact went_of_call hidle (by rw [hstage]; exact .maintain (by simpa using hstop)) hs
    | maintained rebuilt =>
      simp only [hstage, Option.some.injEq] at hs
      subst hs
      exact .plain hidle (plain_maintained hstage)
    | due due =>
      simp only [hstage, Option.some.injEq] at hs
      subst hs
      exact .plain hidle (plain_locked (by rw [hstage]; rfl) (plain_due hstage))
    | reporting purpose =>
      obtain ⟨snapshot, messages, hcollect, hmessages⟩ := exists_messages haccepted host
      simp only [hstage, hcollect, Outcome.ok_bind, hmessages, Option.some.injEq] at hs
      subst hs
      exact .plain hidle (.report hstage hcollect hmessages)
    | publishing purpose total completed todo =>
      cases todo with
      | nil =>
        simp only [hstage, Option.some.injEq] at hs
        subst hs
        refine .plain hidle (plain_locked (by rw [hstage]; rfl) ?_)
        cases purpose with
        | cycle due => exact .reported hstage
        | once => exact .reportedOnce hstage
      | cons m todo =>
        simp only [hstage] at hs
        exact went_of_call hidle (by rw [hstage]; exact .publish) hs
    | scheduling due reported =>
      simp only [hstage, Option.some.injEq] at hs
      subst hs
      exact .plain hidle (.scheduled hstage)
    | ticked =>
      obtain ⟨d, hsleep, -⟩ := fits_sleepSecs (some job.notifier) s.reporter s.clock
      rw [Option.bind_some] at hsleep
      simp only [hstage, hsleep, Option.some.injEq] at hs
      subst hs
      exact .plain hidle (.pauses hstage hsleep)
    | waiting since d =>
      simp only [hstage] at hs
      obtain ⟨hover, hs⟩ := Option.ite_none_right_eq_some.1 hs
      cases hs
      exact .plain hidle (.woken hstage hover)
    | awaiting since =>
      simp only [hstage, Option.some.injEq] at hs
      subst hs
      refine .plain hidle (plain_locked (by rw [hstage]; rfl) ?_)
      split
      · rename_i hwait
        obtain ⟨hconn, hearly, hstop⟩ := hwait
        obtain ⟨d, hd⟩ := pollDelay_isSome job.notifier
        rw [hd]
        exact .polls hstage (by simpa using hconn) hearly (by simpa using hstop)
      · rename_i hwait
        split
        · exact .interrupted hstage ‹_›
        · rename_i hstop
          have hstop : s.stop = false := by simpa using hstop
          refine .found hstage hstop ?_
          by_contra hnot
          rw [not_or, not_le] at hnot
          exact hwait ⟨by simpa using hnot.1, hnot.2, by simpa using hstop⟩
    | dozing since from' d =>
      simp only [hstage] at hs
      obtain ⟨hover, hs⟩ := Option.ite_none_right_eq_some.1 hs
      cases hs
      exact .plain hidle (.dozed hstage hover)
    | leaving status =>
      simp only [hstage] at hs
      exact went_of_call hidle (by rw [hstage]; exact .stop) hs
    | stopped status =>
      simp only [hstage] at hs
      exact went_of_call hidle (by rw [hstage]; exact .drop) hs
    | dropped status =>
      simp only [hstage, Option.some.injEq] at hs
      subst hs
      exact .plain hidle (.ended hstage)
    | ended | panicked =>
      simp only [hstage] at hs
      cases hs

/-! ## What no step changes -/

/-- A step outside of the publisher leaves it alone. -/
theorem Plain.frame (h : Plain job s t) :
    t.system = s.system ∧ t.epoch = s.epoch ∧ t.stop = s.stop ∧ t.reporter.cfg = s.reporter.cfg ∧
      t.reporter.interval = s.reporter.interval ∧ sessionsIn t.log = sessionsIn s.log := by
  cases h with
  | failed =>
    rw [fail]
    split <;> exact ⟨rfl, rfl, rfl, rfl, rfl, rfl⟩
  | _ => exact ⟨rfl, rfl, rfl, rfl, rfl, rfl⟩

theorem Went.frame {m : Move} (h : Went job s m t) :
    t.epoch = s.epoch ∧ t.reporter.cfg = s.reporter.cfg ∧
      t.reporter.interval = s.reporter.interval := by
  cases h with
  | publisher | signal | call => exact ⟨rfl, rfl, rfl⟩
  | plain _ h =>
    obtain ⟨-, hepoch, -, hcfg, hinterval, -⟩ := h.frame
    exact ⟨hepoch, hcfg, hinterval⟩

/-- What `AcceptsOnline` says of a step of the network thread. -/
def AcceptsOnline (validTopic : String → Prop) (job : Job) (s : Service) : Move → Prop
  | .publisher a => Mqtt.AcceptsOnline validTopic job.set s.system a
  | _ => True

theorem Calls.acceptsOnline {stop : Bool} {stage : Stage} {a : Act} {next : System → Stage}
    (h : Calls stop stage a next) (validTopic : String → Prop) (set : Settings) (system : System) :
    Mqtt.AcceptsOnline validTopic set system a := by
  cases h <;> trivial

/-- **A step of the program is a step of the publisher, or leaves it alone.** -/
theorem Went.system {m : Move} (h : Went job s m t) :
    (t.system = s.system ∧ sessionsIn t.log = sessionsIn s.log) ∨
      ∃ a, s.system.step job.set a = some t.system ∧
        sessionsIn t.log = s.system.sessionEvents a t.system ++ sessionsIn s.log ∧
        ∀ validTopic, AcceptsOnline validTopic job s m →
          Mqtt.AcceptsOnline validTopic job.set s.system a := by
  cases h with
  | signal => exact .inl ⟨rfl, rfl⟩
  | plain _ h =>
    obtain ⟨hsystem, -, -, -, -, hsessions⟩ := h.frame
    exact .inl ⟨hsystem, hsessions⟩
  | @publisher a system ha hs =>
    exact .inr ⟨a, hs, sessionsIn_append _ _, fun _ honline => honline⟩
  | @call host a next system hidle hcalls hs =>
    exact .inr ⟨a, hs, sessionsIn_append _ _, fun _ _ => hcalls.acceptsOnline _ _ _⟩

/-- Neither clock goes back. -/
theorem Went.now_le {m : Move} (h : Went job s m t) : s.system.now ≤ t.system.now := by
  rcases h.system with ⟨hsystem, -⟩ | ⟨a, hs, -⟩
  · rw [hsystem]
  · exact System.now_le_of_step hs

theorem Went.clock_le {m : Move} (h : Went job s m t) : s.clock ≤ t.clock := by
  rw [clock, clock, h.frame.1, Duration.le_def]
  exact Nat.sub_le_sub_right h.now_le _

section Runs

variable {r : Reporter} {built epoch now : Duration} {C : Service → Move → Prop}

theorem frame_of_reach (haccepted : Accepted job.platform r.cfg)
    (h : Reach (step job) C (init job r built epoch now) s) :
    s.epoch = epoch ∧ s.reporter.cfg = r.cfg ∧ s.reporter.interval = r.interval :=
  h.invariant (I := fun s => s.epoch = epoch ∧ s.reporter.cfg = r.cfg ∧
      s.reporter.interval = r.interval) ⟨rfl, rfl, rfl⟩ fun s m t hi _ hs => by
    obtain ⟨hepoch, hcfg, hinterval⟩ := hi
    obtain ⟨hepoch', hcfg', hinterval'⟩ := (went_of_step (by rw [hcfg]; exact haccepted) hs).frame
    exact ⟨hepoch'.trans hepoch, hcfg'.trans hcfg, hinterval'.trans hinterval⟩

theorem went_of_reach (haccepted : Accepted job.platform r.cfg)
    (h : Reach (step job) C (init job r built epoch now) s) {m : Move}
    (hs : s.step job m = some t) : Went job s m t :=
  went_of_step (by rw [(frame_of_reach haccepted h).2.1]; exact haccepted) hs

/-- **A run of the program is a run of the publisher.** -/
theorem reachable_system (haccepted : Accepted job.platform r.cfg) (hbuilt : built ≤ now)
    (h : Reach (step job) C (init job r built epoch now) s) :
    Reachable (System.step job.set) (System.init job.set built) s.system := by
  induction h with
  | refl =>
    have hadvance : (System.init job.set built).step job.set (.advance now) =
        some { System.init job.set built with now := now } := if_pos hbuilt
    exact .single trivial hadvance
  | snoc hr hc hs ih =>
    rcases (went_of_reach haccepted hr hs).system with ⟨hsystem, -⟩ | ⟨a, hs, -⟩
    · rw [hsystem]
      exact ih
    · exact ih.snoc trivial hs

/-- The same with the sessions that are on record. -/
theorem reach_system (haccepted : Accepted job.platform r.cfg) (hbuilt : built ≤ now)
    {validTopic : String → Prop}
    (h : Reach (step job) (AcceptsOnline validTopic job) (init job r built epoch now) s) :
    Reach (logged (System.step job.set) System.sessionEvents)
      (fun p => Mqtt.AcceptsOnline validTopic job.set p.1) (System.init job.set built, [])
      (s.system, sessionsIn s.log) := by
  have hstart : Reach (logged (System.step job.set) System.sessionEvents)
      (fun p => Mqtt.AcceptsOnline validTopic job.set p.1) (System.init job.set built, [])
      ({ System.init job.set built with now := now }, []) := by
    have hadvance : (System.init job.set built).step job.set (.advance now) =
        some { System.init job.set built with now := now } := if_pos hbuilt
    exact .single (a := .advance now) trivial (logged_eq_some.2 ⟨_, hadvance, rfl⟩)
  induction h with
  | refl => exact hstart
  | snoc hr hc hs ih =>
    rcases (went_of_reach haccepted hr hs).system with
      ⟨hsystem, hsessions⟩ | ⟨a, hs, hsessions, honline⟩
    · rw [hsystem, hsessions]
      exact ih
    · rw [hsessions]
      exact ih.snoc (honline _ hc) (logged_eq_some.2 ⟨_, hs, rfl⟩)

end Runs

end Service

/-- A program with `--once`, without systemd. -/
def onceJob (set : Settings) : Job := ⟨.empty, set, .fromEnv 1 fun _ => none, some (.fromSecs 120)⟩

/-- A program that runs until it is stopped, with the settings of the defaults. -/
def loopJob : Job := ⟨.empty, .defaults, .fromEnv 1 fun _ => none, none⟩

/-- A publisher that has met a broker. -/
def Mqtt.System.welcomed (set : Settings) : System :=
  (execWhile (System.step set) (fun _ _ => True) (System.init set .zero)
    [.start, .signal, .spawn .ok, .worker (.connAck [] true)]).getD (System.init set .zero)

/-- It finds a broker at once. -/
theorem Service.reach_onceJob (validTopic : String → Prop) (set : Settings) (r : Reporter) :
    ∃ s, Reach (step (onceJob set)) (AcceptsOnline validTopic (onceJob set))
        (init (onceJob set) r .zero .zero .zero) s ∧
      s.system.pc = .idle ∧ s.stage = .reporting .once ∧ s.reporter = r ∧
      s.log =
        [.note .ready,
          .session (.online ⟨none, set.status, set.online, .atLeastOnce, set.statusRetain⟩),
          .session .connAck] ∧ s.system = .welcomed set :=
  ⟨_, (((((Reach.refl.snoc (a := .go smallHost) trivial rfl).snoc (a := .publisher .signal) trivial
      rfl).snoc (a := .publisher (.spawn .ok)) trivial rfl).snoc
      (a := .publisher (.worker (.connAck [] true))) nofun rfl).snoc (a := .go smallHost) trivial
      rfl).snoc (a := .go smallHost) trivial rfl, rfl, rfl, rfl, rfl, rfl⟩

/-- `--once` finds a broker at once. -/
theorem Service.reach_found (job : Job) (honce : job.once.isSome = true) (r : Reporter)
    (built epoch now : Duration) : ∃ s, Reachable (step job) (init job r built epoch now) s ∧
      s.stage = .reporting .once ∧ s.system.pc = .idle ∧ s.system.poisoned = false ∧
      s.reporter = r := by
  obtain ⟨platform, set, notifier, once⟩ := job
  obtain ⟨wait, rfl⟩ := Option.isSome_iff_exists.1 honce
  exact ⟨_, (((((Reach.refl.snoc (a := .go smallHost) trivial rfl).snoc
      (a := .publisher .signal) trivial rfl).snoc (a := .publisher (.spawn .ok)) trivial rfl).snoc
      (a := .publisher (.worker (.connAck [] true))) trivial rfl).snoc (a := .go smallHost) trivial
      rfl).snoc (a := .go smallHost) trivial rfl, rfl, rfl, rfl, rfl⟩

end SystemReport
