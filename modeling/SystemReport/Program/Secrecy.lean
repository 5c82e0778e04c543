import SystemReport.Program.Twins

/-!
# What a password can influence

`secrecy_law`: two processes that read documents which agree up to secrets print and log the same, and
end in the same way or come to services with the same runs; the publishers of these differ in nothing
but the password.
-/

set_option autoImplicit false

open Machine Yaml

namespace SystemReport

open Mqtt Reporter Config Collectors

namespace Service

variable {job : Job} {s t : Service} {cfg : Config}

/-- The same state with another configuration. -/
def withCfg (s : Service) (cfg : Config) : Service := { s with reporter := { s.reporter with cfg } }

/-- The reports that are made with two configurations are the same. -/
def SameReports (platform : Platform) (c d : Config) : Prop :=
  ∀ host, (collect c host >>= messagesFor platform c) = collect d host >>= messagesFor platform d

theorem call_withCfg (a : Act) (stage : System → Stage) :
    (s.withCfg cfg).call job a stage = (s.call job a stage).map fun t => t.withCfg cfg := by
  rw [call, call, Option.map_map]
  rfl

theorem ite_withCfg (c : Prop) [Decidable c] (a b : Service) :
    (if c then a else b).withCfg cfg = if c then a.withCfg cfg else b.withCfg cfg :=
  apply_ite (fun t : Service => t.withCfg cfg) c a b

theorem locked_withCfg (next : Service) :
    (s.withCfg cfg).locked (next.withCfg cfg) = (s.locked next).withCfg cfg := by
  rw [locked, locked, ite_withCfg]
  rfl

theorem fail_withCfg : (s.withCfg cfg).fail = s.fail.withCfg cfg := by
  rw [fail, fail, ite_withCfg]
  rfl

/-- **What the main thread does does not depend on the configuration**, except for the messages of a
report. -/
theorem go_withCfg (h : SameReports job.platform s.reporter.cfg cfg) (host : Host) :
    (s.withCfg cfg).go job host = (s.go job host).map fun t => t.withCfg cfg := by
  have hstage : (s.withCfg cfg).stage = s.stage := rfl
  rw [go, go, hstage]
  cases hs : s.stage with
  | starting | leaving | stopped => exact call_withCfg _ _
  | looping =>
    dsimp only
    by_cases hstop : s.stop = true
    · rw [if_pos hstop]
      exact if_pos hstop
    · rw [if_neg hstop]
      exact (if_neg hstop).trans (call_withCfg _ _)
  | started =>
    rw [Option.map_some, ite_withCfg]
    cases job.once <;> rfl
  | maintained rebuilt =>
    rw [Option.map_some, ite_withCfg, ite_withCfg, ← fail_withCfg]
    rfl
  | due due =>
    rw [Option.map_some, ← locked_withCfg, ite_withCfg, ite_withCfg]
    rfl
  | reporting purpose =>
    dsimp only
    rw [show (s.withCfg cfg).reporter.cfg = cfg from rfl, ← h host, Option.map_some]
    cases collect s.reporter.cfg host >>= messagesFor job.platform s.reporter.cfg with
    | ok messages => rfl
    | panicked => rfl
    | err e =>
      cases purpose with
      | cycle due => exact congrArg some fail_withCfg
      | once => rfl
  | publishing purpose total completed todo =>
    cases todo with
    | nil =>
      rw [Option.map_some, ← locked_withCfg]
      cases purpose <;> rfl
    | cons message todo => exact call_withCfg _ _
  | scheduling due reported => rfl
  | ticked =>
    dsimp only
    rw [show (s.withCfg cfg).reporter.sleepSecs job.notifier.watchdogIntervalSecs
      (s.withCfg cfg).clock = s.reporter.sleepSecs job.notifier.watchdogIntervalSecs s.clock from rfl]
    cases s.reporter.sleepSecs job.notifier.watchdogIntervalSecs s.clock <;> rfl
  | waiting since d =>
    dsimp only
    by_cases hover : s.stop = true ∨ d ≤ s.system.now.saturatingSub since
    · rw [if_pos hover]
      exact if_pos hover
    · rw [if_neg hover]
      exact if_neg hover
  | awaiting since =>
    rw [Option.map_some, ← locked_withCfg, ite_withCfg, ite_withCfg]
    cases pollDelay job.notifier <;> rfl
  | dozing since from' d =>
    dsimp only
    by_cases hover : s.stop = true ∨ d ≤ s.system.now.saturatingSub from'
    · rw [if_pos hover]
      exact if_pos hover
    · rw [if_neg hover]
      exact if_neg hover
  | dropped | ended | panicked => rfl

/-- **A step does not look at the configuration**, except for the messages of a report. -/
theorem step_withCfg (h : SameReports job.platform s.reporter.cfg cfg) (m : Move) :
    (s.withCfg cfg).step job m = (s.step job m).map fun t => t.withCfg cfg := by
  cases m with
  | publisher a =>
    rw [step, step, apply_ite (Option.map _), Option.map_map]
    rfl
  | signal => rfl
  | go host =>
    rw [step, step, apply_ite (Option.map _), ← go_withCfg h]
    rfl

/-- **Nor does a run.** -/
theorem reach_withCfg {r : Reporter} {built epoch now : Duration}
    (haccepted : Accepted job.platform r.cfg) (h : SameReports job.platform r.cfg cfg)
    (hs : Reachable (step job) (init job r built epoch now) s) :
    Reachable (step job) (init job { r with cfg } built epoch now) (s.withCfg cfg) := by
  refine hs.map (J := fun s => s.reporter.cfg = r.cfg) (fun s => s.withCfg cfg)
    (fun _ hr => (frame_of_reach haccepted hr).2.1) ?_
  intro s m t hcfg _ hstep
  refine Reach.single trivial (a := m) ?_
  rw [step_withCfg (by rw [hcfg]; exact h), hstep]
  rfl

end Service

theorem Config.Twin.sameReports {c d : Config} (h : Twin c d) (platform : Platform) :
    Service.SameReports platform c d := by
  intro host
  rw [h.collect]
  cases Reporter.collect d host with
  | ok snapshot => exact h.messagesFor snapshot
  | err e => rfl
  | panicked => rfl

namespace Program

variable {Certificate Identity Connector : Type}

/-- The same machine with another configuration file and environment. -/
def withProcess (w : World Certificate Identity Connector) (process : Process) :
    World Certificate Identity Connector := { w with process }

/-- Two processes that end in the same way, or come to services with the same runs, whose publishers
differ in the password only. -/
inductive SameNext (w : World Certificate Identity Connector) : Next Connector → Next Connector → Prop
  | exit (status : ℤ) : SameNext w (.exit status) (.exit status)
  | panicked : SameNext w .panicked .panicked
  | serve {job : Job} {publisher publisher' : Publisher Connector} {reporter reporter' : Reporter}
      (hpublisher : SameButPassword publisher publisher')
      (hruns : ∀ s, Reachable (Service.step job) (.init job reporter w.built w.epoch w.now) s →
        Reachable (Service.step job) (.init job reporter' w.built w.epoch w.now)
          (s.withCfg reporter'.cfg))
      (hruns' : ∀ s, Reachable (Service.step job) (.init job reporter' w.built w.epoch w.now) s →
        Reachable (Service.step job) (.init job reporter w.built w.epoch w.now)
          (s.withCfg reporter.cfg)) :
      SameNext w (.serve job publisher reporter) (.serve job publisher' reporter')

/-- What two processes print and log is the same, and they go on in the same way. -/
def Same (w : World Certificate Identity Connector) (x y : List Said × Next Connector) : Prop :=
  x.1 = y.1 ∧ SameNext w x.2 y.2

variable {w : World Certificate Identity Connector} {process : Process} {args : CommandLine.Args}
  {c d : Config}

theorem same_printing (h : Twin c d) :
    Same w (printing w c) (printing (withProcess w process) d) := by
  have hsame : printing (withProcess w process) d = printing w c := by
    rw [printing, printing, printConfig, printConfig, h.redacted]
    rfl
  rw [hsame]
  rcases printing_eq w c with ⟨json, heq⟩ | ⟨heq, -⟩ <;> rw [heq]
  · exact ⟨rfl, .exit 0⟩
  · exact ⟨rfl, .panicked⟩

theorem same_dryRun (h : Twin c d) (hc : Accepted w.platform c) (hd : Accepted w.platform d) :
    Same w (dryRun w c) (dryRun (withProcess w process) d) := by
  obtain ⟨snapshot, messages, hcollect, hmessages, heq⟩ := dryRun_eq hc
  have hd : Accepted (withProcess w process).platform d := hd
  obtain ⟨snapshot', messages', hcollect', hmessages', heq'⟩ := dryRun_eq hd
  rw [h.collect] at hcollect
  obtain rfl := Outcome.ok.inj (hcollect.symm.trans hcollect')
  rw [h.messagesFor] at hmessages
  obtain rfl := Outcome.ok.inj (hmessages.symm.trans hmessages')
  rw [heq, heq']
  exact ⟨rfl, .exit 0⟩

theorem sameNext_of_twin (h : Twin c d) {job : Job} (hc : Accepted job.platform c)
    (hd : Accepted job.platform d) {publisher publisher' : Publisher Connector}
    (hpublisher : SameButPassword publisher publisher') {r : Reporter} (hr : r.cfg = c) :
    SameNext w (.serve job publisher r) (.serve job publisher' { r with cfg := d }) := by
  subst hr
  have hsame := h.sameReports job.platform
  have hback : Service.SameReports job.platform d r.cfg := fun host => (hsame host).symm
  refine .serve hpublisher (fun s hs => Service.reach_withCfg hc hsame hs) fun s hs => ?_
  exact Service.reach_withCfg (r := { r with cfg := d }) hd hback hs

theorem same_starting (h : Twin c d) (hc : Accepted w.platform c) (hd : Accepted w.platform d)
    (hnotifier : notifier (withProcess w process) = notifier w) :
    Same w (starting w args c) (starting (withProcess w process) args d) := by
  have hclock := withClock_of_twin w.tls w.platform h w.usizeMax w.built
  have hreporter := h.withIo (w.now.saturatingSub w.epoch)
  rw [starting, starting, hnotifier]
  by_cases hsignals : w.signals = true
  · rw [if_pos hsignals, if_pos (show (withProcess w process).signals = true from hsignals)]
    have hclock' : withClock (withProcess w process).tls (withProcess w process).platform
        (withProcess w process).usizeMax d (withProcess w process).built =
        withClock w.tls w.platform w.usizeMax d w.built := rfl
    have hreporter' : withIo d ((withProcess w process).now.saturatingSub (withProcess w process).epoch) =
        withIo d (w.now.saturatingSub w.epoch) := rfl
    rw [hclock', hreporter', ← h.loggedInterval, ← h.connectWait, ← h.hostname]
    generalize withClock w.tls w.platform w.usizeMax c w.built = x,
      withClock w.tls w.platform w.usizeMax d w.built = y at hclock
    generalize hx : withIo c (w.now.saturatingSub w.epoch) = r,
      hy : withIo d (w.now.saturatingSub w.epoch) = r' at hreporter
    cases hclock with
    | err e => exact ⟨rfl, .exit 2⟩
    | panicked => exact ⟨rfl, .panicked⟩
    | ok hpublisher =>
      cases loggedInterval c with
      | err | panicked => exact ⟨rfl, .panicked⟩
      | ok secs =>
        cases connectWait c with
        | err | panicked => exact ⟨rfl, .panicked⟩
        | ok wait =>
          cases hreporter with
          | err | panicked => exact ⟨rfl, .panicked⟩
          | ok hcfg =>
            obtain ⟨rfl, rfl⟩ := hcfg
            refine ⟨rfl, ?_⟩
            dsimp only
            rw [hpublisher.settings]
            exact sameNext_of_twin h hc hd hpublisher rfl
  · rw [if_neg hsignals, if_neg (show ¬(withProcess w process).signals = true from hsignals)]
    exact ⟨rfl, .exit 1⟩

theorem same_chosen (args : CommandLine.Args) (h : Twin c d) (hc : Accepted w.platform c)
    (hd : Accepted w.platform d)
    (hnotifier : notifier (withProcess w process) = notifier w) :
    Same w (chosen w args c) (chosen (withProcess w process) args d) := by
  rw [chosen, chosen]
  split
  · exact same_printing h
  · split
    · exact same_dryRun h hc hd
    · exact same_starting h hc hd hnotifier

/-- The knobs are no secrets. -/
theorem applied_of_twin (h : Twin c d) :
    applied (c.data.index "knobs") = applied (d.data.index "knobs") := by
  have hknobs := (h.field ["knobs"] (by decide)).isMapping
  have hconsole := h.bool ["knobs", "log_to_console"] (by decide)
  have hdebug := h.bool ["knobs", "log_level_debug"] (by decide)
  simp only [List.foldl_cons, List.foldl_nil] at hknobs hconsole hdebug
  rw [applied, applied, hknobs, hconsole, hdebug]

/-- The variables that `Notifier::new` looks at are not the one with the password. -/
theorem notifier_withProcess {name : Option String} (henv : EnvAgree name w.process.env process.env)
    (hname : ∀ key ∈ name, key ∉ ["NOTIFY_SOCKET", "WATCHDOG_PID", "WATCHDOG_USEC"]) :
    notifier (withProcess w process) = notifier w := by
  refine congrArg (Notifier.fromEnv w.pid) (funext fun key => ?_)
  rcases henv key with heq | ⟨hkey, -⟩
  · rw [heq]
    rfl
  · rw [if_neg (hname key hkey), if_neg (hname key hkey)]

/-- **A password has no influence but on the login.**  Two processes with the same arguments on the same
machine, whose configuration files agree up to secrets, and whose environments agree up to the variable
named by `mqtt.password_env`: they print and log the same and end in the same way, or come to services
with the same runs, in which the same is collected, reported, published and notified; and the publishers
of these differ in the password that they log in with, and in nothing else. -/
theorem secrecy_law (w : World Certificate Identity Connector) (process : Process)
    (arguments : List String) (args : CommandLine.Args)
    (hargs : CommandLine.args arguments = .run args) (yaml yaml' : String) (d d' : Document)
    (hread : w.process.readConfig (args.config.getD w.defaultPath) = .ok yaml)
    (hread' : process.readConfig (args.config.getD w.defaultPath) = .ok yaml')
    (hhostname : w.process.hostname = process.hostname)
    (htexts : Texts w.yaml yaml yaml' w.process.env process.env d d')
    (hname : ∀ key ∈ passwordEnv (mergeDefaults defaults d.value).1,
      key ∉ ["NOTIFY_SOCKET", "WATCHDOG_PID", "WATCHDOG_USEC"]) :
    Same w (run w arguments) (run (withProcess w process) arguments) := by
  have hload : Outcome.Alike Twin (load w args) (load (withProcess w process) args) :=
    twin_of_load hread hread' hhostname htexts
  rw [run, run, hargs]
  dsimp only
  generalize hc : load w args = x, hd : load (withProcess w process) args = y at hload
  cases hload with
  | err e => exact ⟨rfl, .exit 2⟩
  | panicked => exact ⟨rfl, .panicked⟩
  | ok htwin =>
    obtain ⟨hsaid, hnext⟩ := same_chosen args htwin (accepted_of_load hc)
      (accepted_of_load hd) (notifier_withProcess htexts.env hname)
    refine ⟨?_, hnext⟩
    dsimp only
    rw [hsaid, applied_of_twin htwin, logWarnings, logWarnings, htwin.warnings]

/-- A process that finds this text in every file. -/
def holding (yaml : String) : Process := ⟨fun _ => .ok yaml, fun _ => none, .ok "host"⟩

theorem texts_twoSecrets : Texts twoSecrets "mqtt: \x7bpassword: a\x7d" "mqtt: \x7bpassword: b\x7d"
    (holding "").env (holding "").env (withPassword "a") (withPassword "b") where
  left := document_eq_ok.2 ⟨_, rfl, rfl, rfl⟩
  right := document_eq_ok.2 ⟨_, rfl, rfl, rfl⟩
  agree := .mapping (.cons (.same _) (.agree (.mapping (.cons (.same _) (.secret rfl rfl rfl) .nil)))
    .nil)
  passwords := .inr ⟨by decide, by decide⟩
  noFile := rfl
  env _ := .inl rfl

/-- Two files with two passwords. -/
theorem secrecy_law_inline :
    Same { bare with yaml := twoSecrets, process := holding "mqtt: \x7bpassword: a\x7d" }
      (run { bare with yaml := twoSecrets, process := holding "mqtt: \x7bpassword: a\x7d" }
        ["secret.yaml", "--print-config"])
      (run { bare with yaml := twoSecrets, process := holding "mqtt: \x7bpassword: b\x7d" }
        ["secret.yaml", "--print-config"]) :=
  secrecy_law { bare with yaml := twoSecrets, process := holding "mqtt: \x7bpassword: a\x7d" }
    (holding "mqtt: \x7bpassword: b\x7d") ["secret.yaml", "--print-config"]
    ⟨some "secret.yaml", false, false, true⟩ rfl _ _ _ _ rfl rfl rfl texts_twoSecrets (by decide)

end Program
end SystemReport
