import SystemReport.Arguments
import SystemReport.Config.File
import SystemReport.Config.Print
import SystemReport.Log
import SystemReport.Service.Delivery
import SystemReport.Service.Lifecycle
import SystemReport.Service.Shutdown
import SystemReport.Startup

/-!
# The program

The rest of `run` in `src/main.rs`: the command line, the configuration, and what is done with them
up to `publisher.start()`, where the service takes over.  `exit_law` says with which status, and
why, the process exits in any of its runs, and that it panics in two ways only; `dry_run_law` that
`--dry-run` prints what a report would consist of.
-/

set_option autoImplicit false

open Machine Yaml

namespace SystemReport

open Mqtt Reporter Config Collectors

/-- What the process prints, and what it does with its logger.  The standard streams are taken to be
writable: `println!` and `eprintln!` panic where they are not. -/
inductive Said
  | stdout (line : String)
  | stderr (line : String)
  | log (record : Log.Record)
  /-- `log_to_console` -/
  | toConsole
  /-- `set_log_level_debug` -/
  | debug
deriving DecidableEq

/-- A record of `src/main.rs`. -/
def record (level : Log.Level) (line : UInt32) (args : String) : Said :=
  .log ⟨"system_report", level, some "system_report", some line, args⟩

/-- What `apply_knobs` does. -/
def applied (knobs : Value) : List Said :=
  if knobs.isMapping then
    (if (knobs.index "log_to_console").asBool = some true then [.toConsole] else []) ++
      (if (knobs.index "log_level_debug").asBool = some true then [.debug] else [])
  else []

/-- What it changes of the logger. -/
def Said.change (l : Log.Logger) : Said → Log.Logger
  | .toConsole => l.logToConsole
  | .debug => l.setLogLevelDebug
  | _ => l

theorem applyKnobs_eq (l : Log.Logger) (knobs : Value) :
    l.applyKnobs knobs = (applied knobs).foldl Said.change l := by
  rw [Log.Logger.applyKnobs, applied]
  split
  · by_cases hconsole : (knobs.index "log_to_console").asBool = some true
    · simp only [if_pos hconsole]
      split <;> rfl
    · simp only [if_neg hconsole]
      split <;> rfl
  · rfl

/-- The process and its machine: the libraries, the files, the environment, the clock readings, and
whether handlers for signals can be registered. -/
structure World (Certificate Identity Connector : Type) where
  yaml : SerdeYaml
  tls : NativeTls Certificate Identity Connector
  platform : Platform
  process : Process
  /-- `CFG_FILENAME` -/
  defaultPath : String
  floatText : ℚ → String
  usizeMax : ℕ
  pid : ℕ
  signals : Bool
  /-- what `--dry-run` reads below `/proc` -/
  host : Host
  built : Duration
  epoch : Duration
  now : Duration
  built_le : built ≤ epoch
  epoch_le : epoch ≤ now

/-- How the part before the service ends. -/
inductive Next (Connector : Type)
  | exit (status : ℤ)
  | panicked
  | serve (job : Job) (publisher : Publisher Connector) (reporter : Reporter)

namespace Program

variable {Certificate Identity Connector : Type}

/-- `config::load`. -/
def load (w : World Certificate Identity Connector) (args : CommandLine.Args) :
    Outcome ConfigError Config :=
  loadWithDefault w.yaml w.platform w.process args.config none none w.defaultPath

/-- `--print-config`. -/
def printing (w : World Certificate Identity Connector) (cfg : Config) :
    List Said × Next Connector :=
  match cfg.printConfig w.floatText with
  | .ok json => ([.stdout (w.platform.json.toStringPretty json)], .exit 0)
  | _ => ([], .panicked)

/-- The line of a message. -/
def messageLine (message : String × String) : String := message.1 ++ " " ++ message.2

/-- `--dry-run`. -/
def dryRun (w : World Certificate Identity Connector) (cfg : Config) :
    List Said × Next Connector :=
  match withIo cfg w.now with
  | .ok reporter =>
    match collect reporter.cfg w.host with
    | .ok snapshot =>
      let problems := snapshot.errors.map fun e => record .warn 104 ("collection problem: " ++ e)
      match messagesFor w.platform reporter.cfg snapshot with
      | .ok messages => (problems ++ messages.map fun m => .stdout (messageLine m), .exit 0)
      | .err e => (problems ++ [record .error 114 e.text], .exit 1)
      | .panicked => (problems, .panicked)
    | _ => ([], .panicked)
  | _ => ([], .panicked)

/-- The variables of the environment that `Notifier::new` looks at. -/
def notifier (w : World Certificate Identity Connector) : Notifier :=
  .fromEnv w.pid fun key =>
    if key ∈ ["NOTIFY_SOCKET", "WATCHDOG_PID", "WATCHDOG_USEC"] then w.process.env key else none

/-- From the signal handlers to `Reporter::new`. -/
def starting (w : World Certificate Identity Connector) (args : CommandLine.Args) (cfg : Config) :
    List Said × Next Connector :=
  if w.signals then
    match withClock w.tls w.platform w.usizeMax cfg w.built with
    | .ok publisher =>
      match loggedInterval cfg with
      | .ok secs =>
        let hello := record .info 133 (appName ++ " " ++ version ++ " starting: host=" ++
          cfg.hostname ++ " interval=" ++ toString secs.toNat ++ "s")
        match connectWait cfg with
        | .ok wait =>
          match withIo cfg (w.now.saturatingSub w.epoch) with
          | .ok reporter =>
            let job : Job :=
              { platform := w.platform
                set := publisher.settings
                notifier := notifier w
                once := if args.once then some wait else none }
            ([hello], .serve job publisher reporter)
          | _ => ([hello], .panicked)
        | _ => ([hello], .panicked)
      | _ => ([], .panicked)
    | .err _ =>
      ([record .error 129 "cannot initialize MQTT publisher; check TLS configuration"], .exit 2)
    | .panicked => ([], .panicked)
  else ([record .error 122 "cannot register signal handler"], .exit 1)

/-- What is done with a configuration. -/
def chosen (w : World Certificate Identity Connector) (args : CommandLine.Args) (cfg : Config) :
    List Said × Next Connector :=
  if args.printConfig then printing w cfg
  else if args.dryRun then dryRun w cfg
  else starting w args cfg

/-- `run`, up to `publisher.start()`. -/
def run (w : World Certificate Identity Connector) (arguments : List String) :
    List Said × Next Connector :=
  match CommandLine.args arguments with
  | .printed line => ([.stdout line], .exit 0)
  | .rejected => ([.stderr "invalid arguments; see --help"], .exit 2)
  | .run args =>
    match load w args with
    | .ok cfg =>
      let (said, next) := chosen w args cfg
      (applied (cfg.data.index "knobs") ++ (logWarnings cfg).map (record .warn 92) ++ said, next)
    | .err e => ([.stderr e.text], .exit 2)
    | .panicked => ([], .panicked)

/-! ## What a way of running comes to -/

variable {w : World Certificate Identity Connector} {args : CommandLine.Args} {cfg : Config}

/-- **A dry run reaches its end**, with an accepted configuration. -/
theorem dryRun_eq (h : Accepted w.platform cfg) : ∃ snapshot messages,
    collect cfg w.host = .ok snapshot ∧ messagesFor w.platform cfg snapshot = .ok messages ∧
      dryRun w cfg =
        ((snapshot.errors.map fun e => record .warn 104 ("collection problem: " ++ e)) ++
          messages.map fun m => .stdout (messageLine m), .exit 0) := by
  obtain ⟨reporter, hreporter⟩ := withIo_of_shaped h.shaped w.now
  obtain ⟨hcfg, -⟩ := follows_of_withIo hreporter
  obtain ⟨snapshot, messages, hcollect, hmessages⟩ := Service.exists_messages h w.host
  refine ⟨snapshot, messages, hcollect, hmessages, ?_⟩
  rw [dryRun, hreporter]
  dsimp only
  rw [hcfg, hcollect]
  dsimp only
  rw [hmessages]

/-- The configuration is printed, unless a key has no JSON text. -/
theorem printing_eq (w : World Certificate Identity Connector) (cfg : Config) :
    (∃ json, printing w cfg = ([.stdout (w.platform.json.toStringPretty json)], .exit 0)) ∨
      printing w cfg = ([], .panicked) ∧ cfg.redacted.isJson = false := by
  rw [printing, printConfig, ← Value.isSome_toJson w.floatText]
  cases cfg.redacted.toJson w.floatText with
  | some json => exact .inl ⟨json, rfl⟩
  | none => exact .inr ⟨rfl, rfl⟩

/-- A service that is started: what it runs with. -/
structure Started (w : World Certificate Identity Connector) (args : CommandLine.Args)
    (cfg : Config) (job : Job) (publisher : Publisher Connector) (reporter : Reporter) : Prop where
  signals : w.signals = true
  built : withClock w.tls w.platform w.usizeMax cfg w.built = .ok publisher
  made : withIo cfg (w.now.saturatingSub w.epoch) = .ok reporter
  platform : job.platform = w.platform
  settings : job.set = publisher.settings
  notifier : job.notifier = notifier w
  once : job.once.isSome = args.once

/-- **What becomes of a start.** -/
theorem starting_cases (args : CommandLine.Args) (h : Accepted w.platform cfg) :
    (w.signals = false ∧ (starting w args cfg).2 = .exit 1) ∨
      (∃ e, withClock w.tls w.platform w.usizeMax cfg w.built = .err e ∧
        (starting w args cfg).2 = .exit 2) ∨
      ∃ job publisher reporter, Started w args cfg job publisher reporter ∧
        (starting w args cfg).2 = .serve job publisher reporter := by
  have hreadable := readable_of_shaped w.tls w.platform h.shaped
  obtain ⟨secs, hsecs⟩ := hreadable.loggedInterval
  obtain ⟨wait, hwait⟩ := hreadable.connectWait
  obtain ⟨reporter, hreporter⟩ := hreadable.withIo (w.now.saturatingSub w.epoch)
  rw [starting]
  cases hsignals : w.signals with
  | false => exact .inl ⟨rfl, rfl⟩
  | true =>
    rw [if_pos rfl]
    cases hpublisher : withClock w.tls w.platform w.usizeMax cfg w.built with
    | panicked => exact absurd hpublisher (hreadable.withClock w.usizeMax w.built)
    | err e => exact .inr (.inl ⟨e, rfl, rfl⟩)
    | ok publisher =>
      simp only [hsecs, hwait, hreporter]
      refine .inr (.inr ⟨_, publisher, reporter, ⟨hsignals, hpublisher, hreporter, rfl, rfl, rfl, ?_⟩,
        rfl⟩)
      cases args.once <;> rfl

/-! ## The courses of the process -/

/-- What is asked of the process: the arguments and the configuration. -/
structure Asked (w : World Certificate Identity Connector) (arguments : List String)
    (args : CommandLine.Args) (cfg : Config) : Prop where
  parsed : CommandLine.args arguments = .run args
  loaded : load w args = .ok cfg

/-- Neither `--print-config` nor `--dry-run`. -/
def Serves (args : CommandLine.Args) : Prop := args.printConfig = false ∧ args.dryRun = false

/-- How the part before the service can end, and why. -/
inductive Course (w : World Certificate Identity Connector) (arguments : List String) :
    Next Connector → Prop
  /-- `--help` or `--version` -/
  | printed {line : String} (hargs : CommandLine.args arguments = .printed line) :
      Course w arguments (.exit 0)
  | rejected (hargs : CommandLine.args arguments = .rejected) : Course w arguments (.exit 2)
  | refused {args : CommandLine.Args} {e : ConfigError}
      (hargs : CommandLine.args arguments = .run args) (hload : load w args = .err e) :
      Course w arguments (.exit 2)
  | shown {args : CommandLine.Args} {cfg : Config} (hasked : Asked w arguments args cfg)
      (hshows : args.printConfig = true ∨ args.dryRun = true) : Course w arguments (.exit 0)
  /-- a key of the configuration has no JSON text -/
  | unprintable {args : CommandLine.Args} {cfg : Config} {yaml : String} {found : Bool} {d : Document}
      (hasked : Asked w arguments args cfg) (hprints : args.printConfig = true)
      (htext : configText w.process (args.config.getD w.defaultPath) w.defaultPath =
        .ok (yaml, found))
      (hdoc : document w.yaml yaml = .ok d) (hkey : printable d.value = false) :
      Course w arguments .panicked
  | unsignalled {args : CommandLine.Args} {cfg : Config} (hasked : Asked w arguments args cfg)
      (hserves : Serves args) (hsignals : w.signals = false) : Course w arguments (.exit 1)
  | unsecured {args : CommandLine.Args} {cfg : Config} {e : String}
      (hasked : Asked w arguments args cfg) (hserves : Serves args)
      (hrefused : withClock w.tls w.platform w.usizeMax cfg w.built = .err e) :
      Course w arguments (.exit 2)
  | started {args : CommandLine.Args} {cfg : Config} {job : Job} {publisher : Publisher Connector}
      {reporter : Reporter} (hasked : Asked w arguments args cfg) (hserves : Serves args)
      (hstarted : Started w args cfg job publisher reporter) :
      Course w arguments (.serve job publisher reporter)

variable {arguments : List String}

/-- What the tree of a configuration that is loaded can be printed from. -/
theorem printable_of_load (h : load w args = .ok cfg) : ∃ yaml found d,
    configText w.process (args.config.getD w.defaultPath) w.defaultPath = .ok (yaml, found) ∧
      document w.yaml yaml = .ok d ∧ cfg.redacted.isJson = printable d.value := by
  obtain ⟨yaml, found, _, accepted, _, _, htext, -, haccepted, rfl⟩ := loadWithDefault_eq_ok h
  obtain ⟨-, d, hd, hdata⟩ := accepted_of_fromYaml haccepted
  exact ⟨yaml, found, d, htext, hd, isJson_redacted d.wf hdata⟩

theorem chosen_of_serves (h : Serves args) : chosen w args cfg = starting w args cfg := by
  rw [chosen, h.1, h.2]
  rfl

theorem Asked.run_eq (hasked : Asked w arguments args cfg) :
    (run w arguments).2 = (chosen w args cfg).2 := by
  rw [run, hasked.parsed]
  dsimp only
  rw [hasked.loaded]

theorem Asked.course (hasked : Asked w arguments args cfg) :
    Course w arguments (run w arguments).2 := by
  have haccepted := accepted_of_load hasked.loaded
  rw [hasked.run_eq, chosen]
  by_cases hprints : args.printConfig = true
  · rw [if_pos hprints]
    rcases printing_eq w cfg with ⟨json, heq⟩ | ⟨heq, hkey⟩ <;> rw [heq]
    · exact .shown hasked (.inl hprints)
    · obtain ⟨yaml, found, d, htext, hdoc, hprintable⟩ := printable_of_load hasked.loaded
      exact .unprintable hasked hprints htext hdoc (hprintable.symm.trans hkey)
  · rw [if_neg hprints]
    by_cases hdry : args.dryRun = true
    · obtain ⟨_, _, -, -, heq⟩ := dryRun_eq haccepted
      rw [if_pos hdry, heq]
      exact .shown hasked (.inr hdry)
    · have hserves : Serves args := ⟨by simpa using hprints, by simpa using hdry⟩
      rw [if_neg hdry]
      rcases starting_cases args haccepted with
        ⟨hsignals, heq⟩ | ⟨e, hrefused, heq⟩ | ⟨job, publisher, reporter, hstarted, heq⟩ <;> rw [heq]
      · exact .unsignalled hasked hserves hsignals
      · exact .unsecured hasked hserves hrefused
      · exact .started hasked hserves hstarted

/-- **The process takes one of these courses.** -/
theorem course (w : World Certificate Identity Connector) (arguments : List String) :
    Course w arguments (run w arguments).2 := by
  cases hargs : CommandLine.args arguments with
  | printed line =>
    rw [run, hargs]
    exact .printed hargs
  | rejected =>
    rw [run, hargs]
    exact .rejected hargs
  | run args =>
    cases hload : load w args with
    | ok cfg => exact Asked.course ⟨hargs, hload⟩
    | panicked => exact absurd hload loadWithDefault_ne_panicked
    | err e =>
      rw [run, hargs]
      dsimp only
      rw [hload]
      exact .refused hargs hload

/-! ## The whole process -/

/-- Where the process is: it has ended, or the service is under way. -/
inductive Execution
  | ended (status : ℤ)
  | panicked
  | serving (s : Service)

/-- Where the process can be, in all its runs. -/
inductive Reached (w : World Certificate Identity Connector) (arguments : List String) :
    Execution → Prop
  | exit {status : ℤ} (h : (run w arguments).2 = .exit status) : Reached w arguments (.ended status)
  | panicked (h : (run w arguments).2 = .panicked) : Reached w arguments .panicked
  | serve {job : Job} {publisher : Publisher Connector} {reporter : Reporter} {s : Service}
      (h : (run w arguments).2 = .serve job publisher reporter)
      (hs : Reachable (Service.step job) (.init job reporter w.built w.epoch w.now) s) :
      Reached w arguments (.serving s)

/-- The status with which the process has ended. -/
def Execution.status : Execution → Option ℤ
  | .ended status => some status
  | .panicked => none
  | .serving s =>
    match s.stage with
    | .ended status => some status
    | _ => none

/-- The main thread has panicked. -/
def Execution.Panics : Execution → Prop
  | .ended _ => False
  | .panicked => True
  | .serving s => s.stage = .panicked ∨ s.system.pc = .panicked

/-- Why the process ends with a status. -/
inductive Cause (w : World Certificate Identity Connector) (arguments : List String) :
    Execution → ℤ → Prop
  | early {status : ℤ} (h : Course w arguments (.exit status)) :
      Cause w arguments (.ended status) status
  /-- the service was told to stop, or it was `--once` -/
  | done {args : CommandLine.Args} {cfg : Config} {s : Service} (hasked : Asked w arguments args cfg)
      (hserves : Serves args) (hdone : s.stop = true ∨ args.once = true) :
      Cause w arguments (.serving s) 0
  /-- the network thread could not be started, or five cycles in a row have failed -/
  | failed {args : CommandLine.Args} {cfg : Config} {s : Service} (hasked : Asked w arguments args cfg)
      (hserves : Serves args) (hfailed : phaseOf s.log = some .starting ∨
        maxConsecutiveCycleFailures.toNat ≤ streak (outcomesIn s.log)) :
      Cause w arguments (.serving s) 1

/-- Why the main thread panics: on a configuration that cannot be printed, or because the network
thread has panicked while it held the lock. -/
inductive PanicCause (w : World Certificate Identity Connector) (arguments : List String) :
    Execution → Prop
  | early (h : Course w arguments .panicked) : PanicCause w arguments .panicked
  | poisoned {s : Service} (hpoisoned : s.system.poisoned = true) :
      PanicCause w arguments (.serving s)

variable {p : Execution}

/-- The service runs with the configuration that is loaded. -/
theorem Started.accepted {job : Job} {publisher : Publisher Connector} {reporter : Reporter}
    (h : Started w args cfg job publisher reporter) (hasked : Asked w arguments args cfg) :
    reporter.cfg = cfg ∧ Accepted job.platform reporter.cfg := by
  obtain ⟨hcfg, -⟩ := follows_of_withIo h.made
  rw [h.platform, hcfg]
  exact ⟨rfl, accepted_of_load hasked.loaded⟩

/-- The service ends for the reasons of `Service.Lives`. -/
theorem Started.cause {job : Job} {publisher : Publisher Connector} {reporter : Reporter}
    {s : Service} (h : Started w args cfg job publisher reporter)
    (hasked : Asked w arguments args cfg) (hserves : Serves args)
    (hs : Reachable (Service.step job) (.init job reporter w.built w.epoch w.now) s) {status : ℤ}
    (hstatus : (Execution.serving s).status = some status) :
    Cause w arguments (.serving s) status := by
  obtain ⟨-, haccepted⟩ := h.accepted hasked
  have hlives := Service.lives_of_reach haccepted (counts_of_withIo h.made).1 hs
  have hstage : s.stage.status = some status := by
    rw [Execution.status] at hstatus
    split at hstatus
    · rename_i heq
      rw [heq]
      exact hstatus
    · cases hstatus
  rcases hlives.status status hstage with ⟨rfl, hdone⟩ | ⟨rfl, hstarting⟩ | ⟨rfl, hfailed⟩
  · rw [h.once] at hdone
    exact .done hasked hserves hdone
  · exact .failed hasked hserves (.inl hstarting)
  · exact .failed hasked hserves (.inr hfailed)

/-- It panics for those of `Service.Steady`. -/
theorem Started.poisoned {job : Job} {publisher : Publisher Connector} {reporter : Reporter}
    {s : Service} (h : Started w args cfg job publisher reporter)
    (hasked : Asked w arguments args cfg)
    (hs : Reachable (Service.step job) (.init job reporter w.built w.epoch w.now) s)
    (hpanics : (Execution.serving s).Panics) : s.system.poisoned = true := by
  obtain ⟨-, haccepted⟩ := h.accepted hasked
  obtain ⟨fields, hfields⟩ := meminfoFields_isOk haccepted.shaped
  have hsteady := Service.steady_of_reach haccepted hfields (w.built_le.trans w.epoch_le) hs
  exact hpanics.elim hsteady.stage hsteady.blames

/-- **Why the process ends.**  For all arguments in UTF-8, files and environments, where what is
printed can be written, and in every run of the service: the status is 0, 1 or 2, with a cause that
belongs to it, and the main thread panics in two cases only. -/
theorem exit_law (w : World Certificate Identity Connector) (arguments : List String)
    (p : Execution) (h : Reached w arguments p) :
    (∀ status, p.status = some status → Cause w arguments p status) ∧
      (p.Panics → PanicCause w arguments p) := by
  have hcourse := course w arguments
  cases h with
  | exit h =>
    rw [h] at hcourse
    exact ⟨fun status hstatus => Option.some.inj hstatus ▸ .early hcourse, False.elim⟩
  | panicked h =>
    rw [h] at hcourse
    exact ⟨(fun status hstatus => by cases hstatus), fun _ => .early hcourse⟩
  | serve h hs =>
    rw [h] at hcourse
    cases hcourse with
    | started hasked hserves hstarted =>
      exact ⟨fun status hstatus => hstarted.cause hasked hserves hs hstatus,
        fun hpanics => .poisoned (hstarted.poisoned hasked hs hpanics)⟩

/-- A process without a configuration file and without systemd. -/
def bare : World Unit Unit Unit where
  yaml := .defaultsOnly
  tls := plainTcp
  platform := .empty
  process :=
    ⟨fun _ => .error ⟨true, "No such file or directory (os error 2)"⟩, fun _ => none, .ok "host"⟩
  defaultPath := "/src/data/config.yaml"
  floatText _ := "0.0"
  usizeMax := 2 ^ 64 - 1
  pid := 1
  signals := true
  host := smallHost
  built := .zero
  epoch := .zero
  now := .zero
  built_le := le_rfl
  epoch_le := le_rfl

/-- The publisher does not depend on the warnings. -/
theorem withClock_warnings (lib : NativeTls Certificate Identity Connector) (platform : Platform)
    (usizeMax : ℕ) (cfg : Config) (warnings : List String) (now : Duration) :
    withClock lib platform usizeMax { cfg with warnings } now =
      withClock lib platform usizeMax cfg now := by
  have hoptions : mqttOptions lib platform { cfg with warnings } = mqttOptions lib platform cfg := by
    rw [mqttOptions, mqttOptions]
    rfl
  have hsettings (clean : Bool) :
      settings usizeMax { cfg with warnings } clean = settings usizeMax cfg clean := by
    rw [settings, settings]
  rw [withClock, withClock, hoptions]
  simp only [hsettings]

theorem configText_bare :
    configText bare.process bare.defaultPath bare.defaultPath = .ok ("", false) := by
  rw [configText]
  exact if_pos ⟨rfl, beq_self_eq_true _⟩

theorem load_bare : ∃ cfg, load bare CommandLine.Args.default = .ok cfg ∧
    ∃ publisher, withClock plainTcp .empty (2 ^ 64 - 1) cfg .zero = .ok publisher := by
  obtain ⟨cfg, publisher, hcfg, hpublisher, -⟩ := withClock_defaults
  obtain ⟨haccepted, -⟩ := accepted_of_fromYaml hcfg
  obtain ⟨warning, hwarning⟩ := missingWarning_isOk haccepted.shaped bare.defaultPath
  refine ⟨{ cfg with warnings := warning :: cfg.warnings }, ?_, publisher, ?_⟩
  · refine Outcome.bind_eq_ok.2 ⟨_, configText_bare, Outcome.bind_eq_ok.2 ⟨"host", rfl, ?_⟩⟩
    exact Outcome.bind_eq_ok.2 ⟨cfg, Outcome.mapErr_eq_ok.2 hcfg,
      Outcome.bind_eq_ok.2 ⟨warning, hwarning, rfl⟩⟩
  · rw [withClock_warnings]
    exact hpublisher

/-- It comes to the service. -/
theorem run_bare (once : Bool) (arguments : List String)
    (hargs : CommandLine.args arguments = .run { CommandLine.Args.default with once := once }) :
    ∃ job publisher reporter, (run bare arguments).2 = .serve job publisher reporter ∧
      Accepted job.platform reporter.cfg ∧ job.once.isSome = once := by
  obtain ⟨cfg, hload, publisher, hpublisher⟩ := load_bare
  have hasked : Asked bare arguments { CommandLine.Args.default with once := once } cfg :=
    ⟨hargs, hload⟩
  have haccepted := accepted_of_load hload
  rcases starting_cases { CommandLine.Args.default with once := once } haccepted with
    ⟨hsignals, -⟩ | ⟨e, hrefused, -⟩ | ⟨job, publisher, reporter, hstarted, heq⟩
  · cases hsignals
  · cases hpublisher.symm.trans hrefused
  · refine ⟨job, publisher, reporter, ?_, (hstarted.accepted hasked).2, hstarted.once⟩
    rw [hasked.run_eq, chosen_of_serves ⟨rfl, rfl⟩]
    exact heq

/-- One report, and the goodbye: status 0. -/
theorem exit_law_once : ∃ s messages, Reached bare ["--once"] (.serving s) ∧
    .report smallHost messages ∈ s.log ∧ .note .stopping ∈ s.log ∧ s.stage = .ended 0 ∧
    Cause bare ["--once"] (.serving s) 0 := by
  obtain ⟨job, publisher, reporter, hrun, haccepted, honce⟩ := run_bare true ["--once"] rfl
  obtain ⟨fields, hfields⟩ := meminfoFields_isOk haccepted.shaped
  obtain ⟨messages, s, hs, hstage, hstop, hsound, hreport, hstopping⟩ :=
    Service.reach_once job reporter .zero .zero .zero haccepted honce
  obtain ⟨t, ht, hended, hlog⟩ := Service.reach_ended haccepted hfields le_rfl hs hstop
    (by rw [hstage]; rfl) hsound
  have hreached : Reached bare ["--once"] (.serving t) := .serve hrun (hs.trans ht)
  have hstatus : (Execution.serving t).status = some 0 := by rw [Execution.status, hended]
  obtain ⟨hcause, -⟩ := exit_law bare ["--once"] (.serving t) hreached
  exact ⟨t, messages, hreached, hlog.subset hreport, hlog.subset hstopping, hended, hcause 0 hstatus⟩

/-! ## What a dry run shows -/

/-- What is printed. -/
def stdoutOf (said : List Said) : List String :=
  said.filterMap fun
    | .stdout line => some line
    | _ => none

@[simp] theorem stdoutOf_append (said more : List Said) :
    stdoutOf (said ++ more) = stdoutOf said ++ stdoutOf more := List.filterMap_append

@[simp] theorem stdoutOf_records {α : Type} (items : List α) (level : Log.Level) (line : UInt32)
    (text : α → String) : stdoutOf (items.map fun a => record level line (text a)) = [] := by
  induction items with
  | nil => rfl
  | cons a items ih => exact ih

@[simp] theorem stdoutOf_lines {α : Type} (items : List α) (text : α → String) :
    stdoutOf (items.map fun a => .stdout (text a)) = items.map text := by
  induction items with
  | nil => rfl
  | cons a items ih => exact congrArg (text a :: ·) ih

@[simp] theorem stdoutOf_applied (knobs : Value) : stdoutOf (applied knobs) = [] := by
  rw [applied]
  split
  · rw [stdoutOf_append]
    split <;> split <;> rfl
  · rfl

/-- The same process with other files below `/proc`. -/
def withHost (w : World Certificate Identity Connector) (host : Host) :
    World Certificate Identity Connector := { w with host }

/-- With `--dry-run` in front of the arguments, and these files below `/proc`, the process prints
these messages and ends well. -/
def Previews (w : World Certificate Identity Connector) (arguments : List String) (host : Host)
    (messages : List (String × String)) : Prop :=
  stdoutOf (run (withHost w host) ("--dry-run" :: arguments)).1 = messages.map messageLine ∧
    (run (withHost w host) ("--dry-run" :: arguments)).2 = .exit 0

/-- A dry run prints what `messages_for` makes of a collection. -/
theorem Asked.previews (hasked : Asked w arguments args cfg) (hserves : Serves args) {host : Host}
    {snapshot : Snapshot} {messages : List (String × String)}
    (hcollect : collect cfg host = .ok snapshot)
    (hmessages : messagesFor w.platform cfg snapshot = .ok messages) :
    Previews w arguments host messages := by
  have haccepted : Accepted (withHost w host).platform cfg := accepted_of_load hasked.loaded
  obtain ⟨snapshot', messages', hcollect', hmessages', hdry⟩ := dryRun_eq haccepted
  obtain rfl := Outcome.ok.inj (hcollect.symm.trans hcollect')
  obtain rfl := Outcome.ok.inj (hmessages.symm.trans hmessages')
  have hargs : CommandLine.args ("--dry-run" :: arguments) = .run args.dry := by
    rw [CommandLine.args_dryRun, hasked.parsed]
    rfl
  have hload : load (withHost w host) args.dry = .ok cfg := hasked.loaded
  have hchosen : chosen (withHost w host) args.dry cfg = dryRun (withHost w host) cfg := by
    rw [chosen, show args.dry.printConfig = false from hserves.1]
    rfl
  rw [Previews, run, hargs]
  dsimp only
  rw [hload]
  dsimp only
  have hwarnings : stdoutOf ((logWarnings cfg).map (record .warn 92)) = [] :=
    stdoutOf_records (logWarnings cfg) .warn 92 id
  rw [hchosen, hdry]
  simp [hwarnings]

/-- **`--dry-run` is a preview.**  For whatever arguments the service is run with: every report that
it ever makes is what `--dry-run`, in front of these arguments, prints of the files below `/proc` that
it was made of; and whenever it is about to make a report, what it makes of the files is what
`--dry-run` prints of them.  A dry run always ends well. -/
theorem dry_run_law (w : World Certificate Identity Connector) (arguments : List String) (job : Job)
    (publisher : Publisher Connector) (reporter : Reporter)
    (hrun : (run w arguments).2 = .serve job publisher reporter) (s : Service)
    (hs : Reachable (Service.step job) (.init job reporter w.built w.epoch w.now) s) :
    (∀ made ∈ madeIn s.log, Previews w arguments made.1 made.2) ∧
      ∀ purpose host, s.stage = .reporting purpose → s.system.pc = .idle →
        ∃ messages t, Previews w arguments host messages ∧ s.step job (.go host) = some t ∧
          reportsIn t.log = reportsIn s.log ++ [messages] := by
  have hcourse := course w arguments
  rw [hrun] at hcourse
  cases hcourse with
  | started hasked hserves hstarted =>
    obtain ⟨hcfg, haccepted⟩ := hstarted.accepted hasked
    constructor
    · intro made hmade
      obtain ⟨snapshot, hcollect, hmessages⟩ :=
        (Service.delivers_of_reach haccepted hs).made made hmade
      rw [hcfg] at hcollect hmessages
      rw [hstarted.platform] at hmessages
      exact hasked.previews hserves hcollect hmessages
    · intro purpose host hstage hidle
      have hsame := (Service.frame_of_reach haccepted hs).2.1
      obtain ⟨snapshot, messages, hcollect, hmade⟩ := Service.exists_messages haccepted host
      have hstep := Service.step_reporting hidle hstage (by rw [hsame]; exact hcollect)
        (by rw [hsame]; exact hmade)
      rw [hcfg] at hcollect hmade
      rw [hstarted.platform] at hmade
      exact ⟨messages, _, hasked.previews hserves hcollect hmade, hstep, reportsIn_report _ _ _⟩

/-- What `--once` is about to report. -/
theorem dry_run_law_once : ∃ s messages,
    Reached bare ["--once"] (.serving s) ∧ s.stage = .reporting .once ∧
      Previews bare ["--once"] smallHost messages := by
  obtain ⟨job, publisher, reporter, hrun, -, honce⟩ := run_bare true ["--once"] rfl
  obtain ⟨s, hs, hstage, hidle, -⟩ := Service.reach_found job honce reporter .zero .zero .zero
  obtain ⟨-, hnext⟩ := dry_run_law bare ["--once"] job publisher reporter hrun s hs
  obtain ⟨messages, -, hpreviews, -⟩ := hnext .once smallHost hstage hidle
  exact ⟨s, messages, .serve hrun hs, hstage, hpreviews⟩

end Program
end SystemReport
