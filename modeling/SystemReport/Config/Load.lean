import SystemReport.Config.Merge
import SystemReport.Config.Validate
import SystemReport.Lib.JsonText

/-!
# Loading a configuration

`Config::from_yaml`, the accessors of `Config`, `redact_passwords` and `secrets::resolve`.  The YAML
parser is a parameter (`SerdeYaml`), and so is what the program reads of the machine it runs on
(`Platform`).
-/

set_option autoImplicit false

open Yaml

namespace SystemReport

/-- What `serde_yaml` does for this program: it parses a text into a document, or says where it
fails, and applies merge keys.  It parses the built-in defaults, and merge keys leave a mapping a
mapping and null null. -/
structure SerdeYaml where
  parse : String → Except (Option (ℕ × ℕ)) Document
  applyMerge : Document → Option Document
  parse_defaults : ∃ d, parse Config.defaultsYaml = .ok d ∧ d.value = Config.defaults
  isMapping_applyMerge : ∀ d d', applyMerge d = some d' → d'.value.isMapping = d.value.isMapping
  isNull_applyMerge : ∀ d d', applyMerge d = some d' → d'.value.isNull = d.value.isNull

/-- A parser that knows some texts, without merge keys, besides the built-in defaults. -/
def SerdeYaml.knowing (docs : List (String × Document)) : SerdeYaml where
  parse yaml :=
    if yaml = Config.defaultsYaml then .ok ⟨Config.defaults, Config.wf_defaults⟩
    else
      match docs.lookup yaml with
      | some d => .ok d
      | none => .error none
  applyMerge := some
  parse_defaults := ⟨_, if_pos rfl, rfl⟩
  isMapping_applyMerge := fun _ _ h => by cases h; rfl
  isNull_applyMerge := fun _ _ h => by cases h; rfl

theorem SerdeYaml.parse_knowing {docs : List (String × Document)} {yaml : String} {d : Document}
    (hne : yaml ≠ Config.defaultsYaml) (h : docs.lookup yaml = some d) :
    (knowing docs).parse yaml = .ok d := by
  rw [knowing]
  dsimp only
  rw [if_neg hne, h]

/-- A parser that knows, besides the built-in defaults, only the empty text. -/
def SerdeYaml.defaultsOnly : SerdeYaml := .knowing [("", ⟨.null, rfl⟩)]

/-- What the program takes from libraries and reads of the machine: `str::to_lowercase`, what
`serde_json` writes, `HOME` of the process, the text of a file or the reason why it cannot be read,
and the mode bits of a file. -/
structure Platform where
  toLowercase : String → String
  json : Json.Writer
  processHome : Option String
  readFile : String → Except String String
  fileMode : String → Option ℕ

/-- A machine without files and without `HOME`, on which every text is ASCII. -/
def Platform.empty : Platform where
  toLowercase s := .ofList (s.toList.map Char.toLower)
  json := .plain
  processHome := none
  readFile _ := .error "No such file or directory (os error 2)"
  fileMode _ := none

/-- The environment handed to `from_yaml`. -/
abbrev Env := String → Option String

/-- `Config`. -/
structure Config where
  data : Value
  path : Option String
  password : Option String
  warnings : List String
  hostname : String
  topicPrefix : String
  statusTopic : String
  jsonTopic : String
  uptimeTopic : String

namespace Config

/-! ## Secrets -/

/-- `REDACTED`. -/
def redactedText : String := "<redacted>"

/-- An entry that `redact_passwords` overwrites. -/
def isSecret (key value : Value) : Bool := key.asStr == some "password" && !value.isNull

mutual

/-- `redact_passwords`. -/
def redactPasswords : Value → Value
  | .mapping es => .mapping (redactEntries es)
  | .sequence vs => .sequence (redactAll vs)
  | .tagged tag v => .tagged tag (redactPasswords v)
  | v => v

def redactAll : List Value → List Value
  | [] => []
  | v :: vs => redactPasswords v :: redactAll vs

def redactEntries : List (Value × Value) → List (Value × Value)
  | [] => []
  | (key, value) :: es =>
    (key, if isSecret key value then .string redactedText else redactPasswords value) ::
      redactEntries es

end

/-- A mode in octal, with at least four digits. -/
def octal (mode : ℕ) : String :=
  let ds := Nat.toDigits 8 mode
  .ofList (List.replicate (4 - ds.length) '0' ++ ds)

/-- `mode_warning`. -/
def modeWarning (platform : Platform) (path : String) : Option String :=
  (platform.fileMode path).bind fun mode =>
    if mode &&& 0o077 ≠ 0 then
      some (path ++ " is readable beyond its owner (mode " ++ octal (mode &&& 0o7777) ++
        "); chmod 600 it")
    else none

/-- `PathBuf::join`. -/
def joinFile (home rest : String) : String :=
  if rest.toList.head? = some '/' then rest
  else if home.isEmpty ∨ home.toList.getLast? = some '/' then home ++ rest
  else home ++ "/" ++ rest

/-- The file of `password_file`: `~` is `HOME`. -/
def passwordPath (platform : Platform) (env : Env) (filename : String) :
    Outcome ConfigError String :=
  if filename = "~" ∨ (Text.stripPrefix filename "~/").isSome then do
    let home ← .okOr (fail "mqtt.password_file" "cannot expand ~ without HOME")
      ((env "HOME").or platform.processHome)
    .ok (joinFile home ((Text.stripPrefix filename "~/").getD ""))
  else .ok filename

/-- The value of the variable named by `password_env`, unless it is empty. -/
def envSecret (mqtt : Value) (env : Env) : Option String :=
  ((mqtt.index "password_env").asStr.bind env).filter (· ≠ "")

/-- `secrets::resolve`, with the warnings it pushes. -/
def resolve (platform : Platform) (mqtt : Value) (env : Env) :
    Outcome ConfigError (Option String × List String) :=
  match (mqtt.index "password_file").asStr with
  | some filename => do
    let path ← passwordPath platform env filename
    match platform.readFile path with
    | .error e => .err (fail "mqtt.password_file" ("cannot read " ++ path ++ ": " ++ e))
    | .ok secret =>
      let secret := Text.trim secret
      if secret.isEmpty then .err (fail "mqtt.password_file" "file is empty")
      else .ok (some secret, (modeWarning platform path).toList)
  | none =>
    match envSecret mqtt env with
    | some secret => .ok (some secret, [])
    | none =>
      match (mqtt.index "password").asStr with
      | some secret =>
        .ok (some secret, ["mqtt.password is set inline in the config file; " ++
          "prefer mqtt.password_file or mqtt.password_env"])
      | none => .ok (none, [])

/-! ## Reading a configuration -/

/-- `APP_NAME`. -/
def appName : String := "system_report"

/-- `meminfo_fields`. -/
def meminfoFields (cfg : Config) : Outcome ConfigError (List String) := do
  let fields ← .unwrap (((cfg.data.index "metrics").index "meminfo").index "fields").asSequence
  .mapM (fun v => .unwrap v.asStr) fields

/-- `uptime_enabled`. -/
def uptimeEnabled (cfg : Config) : Outcome ConfigError Bool :=
  .unwrap (((cfg.data.index "metrics").index "uptime_minutes").index "enabled").asBool

/-- `meminfo_enabled`. -/
def meminfoEnabled (cfg : Config) : Outcome ConfigError Bool :=
  .unwrap (((cfg.data.index "metrics").index "meminfo").index "enabled").asBool

/-- `redacted`. -/
def redacted (cfg : Config) : Value := redactPasswords cfg.data

/-- `client_id`. -/
def clientId (cfg : Config) : String :=
  ((cfg.data.index "mqtt").index "client_id").asStr.getD (appName ++ "_" ++ cfg.hostname)

/-- `meminfo_topic`. -/
def meminfoTopic (platform : Platform) (cfg : Config) (field : String) :
    Outcome ConfigError String := do
  let key := "metrics.meminfo.topic"
  let template ← .unwrap (dig cfg.data key).asStr
  let topic ← formatTemplate template key cfg.hostname cfg.topicPrefix
    (some (meminfoTopicName platform.toLowercase field))
  checkTopic topic key
  .ok topic

/-- The closure `topic` of `from_yaml`. -/
def resolveTopic (data : Value) (hostname topicPrefix key : String) :
    Outcome ConfigError String := do
  let template ← .unwrap (dig data key).asStr
  let topic ← formatTemplate template key hostname topicPrefix none
  checkTopic topic key
  .ok topic

/-- The warnings of `from_yaml` about the password and TLS. -/
def tlsWarnings (data : Value) (password : Option String) : Outcome ConfigError (List String) := do
  let mqtt := data.index "mqtt"
  let username :=
    if (mqtt.index "username").asStr.isSome && password.isNone then
      ["mqtt.username is set but no password was found; connecting without one"]
    else []
  let tls ← .unwrap ((mqtt.index "tls").index "enabled").asBool
  let insecure ← if tls then .unwrap ((mqtt.index "tls").index "insecure").asBool else .ok false
  let unverified :=
    if insecure then ["mqtt.tls.insecure is true: the broker certificate is NOT verified"] else []
  let clear :=
    if !tls && password.isSome then
      ["TLS is disabled, so the MQTT password crosses the network in the clear"]
    else []
  .ok (username ++ unverified ++ clear)

/-- The topics that `from_yaml` resolves. -/
structure Topics where
  pre : String
  status : String
  json : String
  uptime : String

/-- The prefix and the topics of `from_yaml`. -/
def resolveTopics (data : Value) (hostname : String) : Outcome ConfigError Topics := do
  let template ← .unwrap ((data.index "topics").index "prefix").asStr
  let pre ← formatTemplate template "topics.prefix" hostname "" none
  let pre := Text.trimEndMatches pre '/'
  let status ← resolveTopic data hostname pre "topics.status"
  let json ← resolveTopic data hostname pre "topics.json"
  let uptime ← resolveTopic data hostname pre "metrics.uptime_minutes.topic"
  .ok ⟨pre, status, json, uptime⟩

/-- The last loop of `from_yaml`: every meminfo topic is resolved at startup. -/
def checkMeminfo (platform : Platform) (cfg : Config) : Outcome ConfigError PUnit := do
  let fields ← .unwrap (((cfg.data.index "metrics").index "meminfo").index "fields").asSequence
  .forEach (fun field => do
    let field ← .unwrap field.asStr
    let _ ← cfg.meminfoTopic platform field
    .ok ⟨⟩) fields

/-- `from_yaml` from a tree that is merged with the defaults and valid, given the warnings so
far. -/
def fromData (platform : Platform) (data : Value) (warnings : List String) (hostname : String)
    (env : Env) : Outcome ConfigError Config := do
  let topics ← resolveTopics data hostname
  let (password, inline) ← resolve platform (data.index "mqtt") env
  let more ← tlsWarnings data password
  let cfg : Config :=
    { data
      path := none
      password
      warnings := warnings ++ inline ++ more
      hostname
      topicPrefix := topics.pre
      statusTopic := topics.status
      jsonTopic := topics.json
      uptimeTopic := topics.uptime }
  cfg.checkMeminfo platform
  .ok cfg

/-- The tree that `from_yaml` validates, and the warnings about unknown keys. -/
def mergeDefaults (defaults raw : Value) : Value × List String :=
  if raw.isNull then (defaults, []) else deepMerge defaults raw ""

/-- The place of a parse error. -/
def locationText : Option (ℕ × ℕ) → String
  | some (line, column) => " at line " ++ toString line ++ ", column " ++ toString column
  | none => ""

/-- `from_yaml` from a document to which the merge keys are applied. -/
def fromDocument (platform : Platform) (defaults raw : Value) (hostname : String) (env : Env) :
    Outcome ConfigError Config := do
  let (data, warnings) := mergeDefaults defaults raw
  validate data defaults
  fromData platform data warnings hostname env

/-- The result of the parser; its own error text is left out, as it can echo a password. -/
def parsed : Except (Option (ℕ × ℕ)) Document → Outcome ConfigError Document
  | .ok raw => .ok raw
  | .error location => .err ⟨"cannot parse YAML" ++ locationText location⟩

/-- The document that `from_yaml` reads in a text, with the merge keys applied. -/
def document (lib : SerdeYaml) (yaml : String) : Outcome ConfigError Document := do
  let raw ← parsed (lib.parse yaml)
  .ensure (raw.value.isMapping || raw.value.isNull) ⟨"expected a mapping at the top level"⟩
  .okOr ⟨"cannot apply YAML merge keys"⟩ (lib.applyMerge raw)

/-- `from_yaml`. -/
def fromYaml (lib : SerdeYaml) (platform : Platform) (yaml hostname : String) (env : Env) :
    Outcome ConfigError Config := do
  let defaults ← .unwrap (lib.parse defaultsYaml).toOption
  let raw ← document lib yaml
  fromDocument platform defaults.value raw.value hostname env

end Config
end SystemReport
