import SystemReport.Config.Accepted

/-!
# The configuration file

`load_with_default`: which file is read, where the environment and the hostname come from, and what
is added to the warnings of `from_yaml`.  Only the default file may be missing.
-/

set_option autoImplicit false

open Yaml

namespace SystemReport

/-- `io::Error`. -/
structure IoError where
  notFound : Bool
  text : String

/-- What `load` asks of the process: the text of a configuration file, the variables of its
environment, and the name of the machine. -/
structure Process where
  readConfig : String → Except IoError String
  env : Env
  hostname : Except String String

namespace Config

/-- `Path::components`: whether there is a root, and the names.  A dot counts as the first name of a
path without a root only. -/
def components (path : String) : Bool × List String :=
  match Text.split path '/' with
  | [] => (false, [])
  | first :: rest =>
    let names := rest.filter fun name => name ≠ "" ∧ name ≠ "."
    (first = "" ∧ rest ≠ [], if first = "" then names else first :: names)

/-- Whether two paths are equal. -/
def samePath (a b : String) : Bool := components a == components b

/-- The text that is read, and whether there is a file. -/
def configText (process : Process) (path defaultPath : String) :
    Outcome ConfigError (String × Bool) :=
  match process.readConfig path with
  | .ok yaml => .ok (yaml, true)
  | .error e =>
    if e.notFound ∧ samePath path defaultPath then .ok ("", false)
    else .err ⟨"cannot read config " ++ path ++ ": " ++ e.text⟩

/-- The hostname, unless it is given. -/
def hostnameOr (process : Process) : Option String → Outcome ConfigError String
  | some hostname => .ok hostname
  | none =>
    match process.hostname with
    | .ok hostname => .ok hostname
    | .error e => .err ⟨"cannot get hostname: " ++ e⟩

/-- The warning about the mode of a file with a password in it. -/
def inlineWarning (platform : Platform) (path : String) (warnings : List String) : List String :=
  if warnings.any fun w => (Text.stripPrefix w "mqtt.password is set inline").isSome then
    (modeWarning platform path).toList
  else []

/-- The warning about a missing file. -/
def missingWarning (path : String) (data : Value) : Outcome ConfigError String := do
  let host ← .unwrap ((data.index "mqtt").index "host").asStr
  let port ← .unwrap ((data.index "mqtt").index "port").asU64
  .ok ("no config file at " ++ path ++ "; using built-in defaults (broker " ++ host ++ ":" ++
    toString port.toNat ++ ")")

/-- `load_with_default`. -/
def loadWithDefault (lib : SerdeYaml) (platform : Platform) (process : Process)
    (path : Option String) (env : Option Env) (hostname : Option String) (defaultPath : String) :
    Outcome ConfigError Config := do
  let path := path.getD defaultPath
  let (yaml, found) ← configText process path defaultPath
  let hostname ← hostnameOr process hostname
  let cfg ← (fromYaml lib platform yaml hostname (env.getD process.env)).mapErr fun e =>
    ⟨path ++ ": " ++ e.text⟩
  if found then
    .ok { cfg with
      path := some path
      warnings := cfg.warnings ++ inlineWarning platform path cfg.warnings }
  else do
    let warning ← missingWarning path cfg.data
    .ok { cfg with warnings := warning :: cfg.warnings }

/-- `log_warnings`: the lines that it hands to the logger. -/
def logWarnings (cfg : Config) : List String := cfg.warnings.map ("config: " ++ ·)

/-! ## What is loaded -/

variable {lib : SerdeYaml} {platform : Platform} {process : Process} {path : Option String}
  {env : Option Env} {hostname : Option String} {defaultPath : String}

theorem configText_ne_panicked (process : Process) (path defaultPath : String) :
    configText process path defaultPath ≠ .panicked := by
  rw [configText]
  split
  · exact nofun
  · split <;> exact nofun

theorem hostnameOr_ne_panicked (process : Process) (hostname : Option String) :
    hostnameOr process hostname ≠ .panicked := by
  cases hostname with
  | some hostname => exact nofun
  | none =>
    rw [hostnameOr]
    split <;> exact nofun

/-- The warning about a missing file can always be made. -/
theorem missingWarning_isOk {data : Value} (h : Shaped data) (path : String) :
    ∃ warning, missingWarning path data = .ok warning :=
  Outcome.unwrap_bind_returns (h.isText ["mqtt", "host"] rfl (by decide)) fun _ _ =>
    Outcome.unwrap_bind_returns (h.isU64 ["mqtt", "port"] rfl) fun _ _ => ⟨_, rfl⟩

/-- **What is loaded is what `from_yaml` accepts**, with more warnings. -/
theorem loadWithDefault_eq_ok {cfg : Config}
    (h : loadWithDefault lib platform process path env hostname defaultPath = .ok cfg) :
    ∃ yaml found name accepted more file,
      configText process (path.getD defaultPath) defaultPath = .ok (yaml, found) ∧
      hostnameOr process hostname = .ok name ∧
      fromYaml lib platform yaml name (env.getD process.env) = .ok accepted ∧
      cfg = { accepted with path := file, warnings := more } := by
  obtain ⟨⟨yaml, found⟩, htext, h⟩ := Outcome.bind_eq_ok.1 h
  obtain ⟨name, hname, h⟩ := Outcome.bind_eq_ok.1 h
  obtain ⟨accepted, haccepted, h⟩ := Outcome.bind_eq_ok.1 h
  rw [Outcome.mapErr_eq_ok] at haccepted
  cases found with
  | true =>
    cases h
    exact ⟨yaml, true, name, accepted, _, _, htext, hname, haccepted, rfl⟩
  | false =>
    obtain ⟨warning, -, h⟩ := Outcome.bind_eq_ok.1 h
    cases h
    exact ⟨yaml, false, name, accepted, _, accepted.path, htext, hname, haccepted, rfl⟩

/-- A configuration that is loaded is accepted. -/
theorem accepted_of_load {cfg : Config}
    (h : loadWithDefault lib platform process path env hostname defaultPath = .ok cfg) :
    Accepted platform cfg := by
  obtain ⟨_, _, _, _, _, _, -, -, haccepted, rfl⟩ := loadWithDefault_eq_ok h
  obtain ⟨h, -⟩ := accepted_of_fromYaml haccepted
  exact ⟨h.valid, h.status, h.json, h.uptime, h.meminfo⟩

/-- **Loading does not panic**, whatever the files, the environment and the hostname are. -/
theorem loadWithDefault_ne_panicked :
    loadWithDefault lib platform process path env hostname defaultPath ≠ .panicked := by
  refine Outcome.bind_ne_panicked (configText_ne_panicked _ _ _) fun read _ => ?_
  refine Outcome.bind_ne_panicked (hostnameOr_ne_panicked _ _) fun name _ => ?_
  refine Outcome.bind_ne_panicked
    (Outcome.mapErr_ne_panicked (fromYaml_ne_panicked lib _ _ _)) fun cfg hcfg => ?_
  rw [Outcome.mapErr_eq_ok] at hcfg
  obtain ⟨haccepted, -⟩ := accepted_of_fromYaml hcfg
  obtain ⟨warning, hwarning⟩ := missingWarning_isOk haccepted.shaped (path.getD defaultPath)
  cases read.2 with
  | true => exact nofun
  | false =>
    rw [if_neg Bool.false_ne_true, hwarning]
    exact nofun

end Config
end SystemReport
