import SystemReport.Reporter.Schedule

/-!
# Starting up

What the program reads of a configuration once `from_yaml` has returned it.  The typed values are
never built: every place indexes the tree again and unwraps what it finds there.  `startup_safe`
says that validation makes all of these places safe.
-/

set_option autoImplicit false

open Yaml

namespace SystemReport

open Config Collectors

/-- The interval that `run` in `src/main.rs` logs. -/
def loggedInterval (cfg : Config) : Outcome ConfigError UInt64 :=
  .unwrap ((cfg.data.index "report").index "interval_secs").asU64

/-- How long `run` waits for a connection with `--once`. -/
def connectWait (cfg : Config) : Outcome ConfigError Duration := do
  let secs ← .unwrap ((cfg.data.index "mqtt").index "reconnect_max_delay_secs").asU64
  .ok (.fromSecs secs)

variable {Certificate Identity Connector : Type}

/-- Every place that reads the configuration finds a value of the type it expects: it returns a
value, or, where it does more than read, at least does not panic. -/
structure Readable (tls : Mqtt.NativeTls Certificate Identity Connector) (platform : Platform)
    (cfg : Config) : Prop where
  meminfoFields : ∃ fields, cfg.meminfoFields = .ok fields
  uptimeEnabled : ∃ b, cfg.uptimeEnabled = .ok b
  meminfoEnabled : ∃ b, cfg.meminfoEnabled = .ok b
  meminfoTopic : ∀ field, cfg.meminfoTopic platform field ≠ .panicked
  withClock : ∀ usizeMax now, Mqtt.withClock tls platform usizeMax cfg now ≠ .panicked
  withIo : ∀ now, ∃ r, Reporter.withIo cfg now = .ok r
  collect : ∀ host, ∃ snapshot, Reporter.collect cfg host = .ok snapshot
  messagesFor : ∀ snapshot, Reporter.messagesFor platform cfg snapshot ≠ .panicked
  loggedInterval : ∃ secs, loggedInterval cfg = .ok secs
  connectWait : ∃ d, connectWait cfg = .ok d

theorem readable_of_shaped (tls : Mqtt.NativeTls Certificate Identity Connector)
    (platform : Platform) {cfg : Config} (h : Shaped cfg.data) : Readable tls platform cfg where
  meminfoFields := Reporter.meminfoFields_isOk h
  uptimeEnabled := Reporter.uptimeEnabled_isOk h
  meminfoEnabled := Reporter.meminfoEnabled_isOk h
  meminfoTopic := meminfoTopic_ne_panicked h
  withClock := Mqtt.withClock_ne_panicked tls platform h
  withIo := Reporter.withIo_of_shaped h
  collect host := by
    obtain ⟨plan, hplan⟩ := Reporter.plan_of_shaped h
    exact ⟨_, Reporter.collect_of_plan hplan host⟩
  messagesFor := Reporter.messagesFor_ne_panicked platform h
  loggedInterval := (h.isU64 ["report", "interval_secs"] rfl).imp fun _ => congrArg Outcome.unwrap
  connectWait := by
    obtain ⟨secs, hsecs⟩ := h.isU64 ["mqtt", "reconnect_max_delay_secs"] rfl
    rw [SystemReport.connectWait,
      show ((cfg.data.index "mqtt").index "reconnect_max_delay_secs").asU64 = some secs from hsecs]
    exact ⟨_, rfl⟩

/-- **Validation makes every later `unwrap` safe.**  `from_yaml` returns or fails on every document,
and what it returns can be read everywhere. -/
theorem startup_safe (lib : SerdeYaml) (tls : Mqtt.NativeTls Certificate Identity Connector)
    (platform : Platform) (yaml hostname : String) (env : Env) :
    fromYaml lib platform yaml hostname env ≠ .panicked ∧
      ∀ cfg, fromYaml lib platform yaml hostname env = .ok cfg → Readable tls platform cfg := by
  refine ⟨fromYaml_ne_panicked lib yaml hostname env, fun cfg hcfg => ?_⟩
  obtain ⟨haccepted, -⟩ := accepted_of_fromYaml hcfg
  exact readable_of_shaped tls platform haccepted.shaped

theorem startup_safe_defaults : ∃ cfg,
    fromYaml .defaultsOnly .empty "" "host" (fun _ => none) = .ok cfg ∧
      Readable Reporter.noTls .empty cfg := by
  obtain ⟨cfg, hcfg, -⟩ := fromYaml_defaultsOnly
  exact ⟨cfg, hcfg, (startup_safe _ Reporter.noTls _ _ _ _).2 cfg hcfg⟩

end SystemReport
