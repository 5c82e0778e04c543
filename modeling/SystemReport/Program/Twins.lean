import SystemReport.Config.Secrecy
import SystemReport.Program

/-!
# Configurations that differ in secrets only

`Twin` relates two configurations whose trees agree up to secrets, and which are equal otherwise except
for the password.  Whatever the program reads of them is the same, and so is what it builds from them,
except for the password in the credentials of the publisher.
-/

set_option autoImplicit false

open Yaml

namespace SystemReport

open Mqtt Reporter Config Collectors

namespace Config

/-- Two configurations that differ in secrets only. -/
structure Twin (c d : Config) : Prop where
  data : Agree false c.data d.data
  path : c.path = d.path
  warnings : c.warnings = d.warnings
  hostname : c.hostname = d.hostname
  topicPrefix : c.topicPrefix = d.topicPrefix
  statusTopic : c.statusTopic = d.statusTopic
  jsonTopic : c.jsonTopic = d.jsonTopic
  uptimeTopic : c.uptimeTopic = d.uptimeTopic

/-! ## Loading -/

variable {platform : Platform}

theorem frame_of_fromData {data : Value} {warnings : List String} {hostname : String} {env : Env}
    {cfg : Config} (h : fromData platform data warnings hostname env = .ok cfg) :
    cfg.hostname = hostname ∧ cfg.path = none := by
  obtain ⟨_, -, h⟩ := Outcome.bind_eq_ok.1 h
  obtain ⟨_, -, h⟩ := Outcome.bind_eq_ok.1 h
  obtain ⟨_, -, h⟩ := Outcome.bind_eq_ok.1 h
  obtain ⟨_, -, h⟩ := Outcome.bind_eq_ok.1 h
  cases h
  exact ⟨rfl, rfl⟩

/-- Two texts that hold documents which agree up to secrets, to be read in environments that agree up
to the variable named by `mqtt.password_env`. -/
structure Texts (lib : SerdeYaml) (yaml yaml' : String) (env env' : Env) (d d' : Document) : Prop where
  left : document lib yaml = .ok d
  right : document lib yaml' = .ok d'
  agree : Agree false d.value d'.value
  passwords : PasswordsFit d.value d'.value
  noFile : ((d.value.index "mqtt").index "password_file").isNull = true
  env : EnvAgree (passwordEnv (mergeDefaults defaults d.value).1) env env'

theorem twin_of_fromYaml {lib : SerdeYaml} {yaml yaml' : String} {env env' : Env} {d d' : Document}
    (h : Texts lib yaml yaml' env env' d d') (hostname : String) :
    Outcome.Alike Twin (fromYaml lib platform yaml hostname env)
      (fromYaml lib platform yaml' hostname env') := by
  obtain ⟨hd, hd', hagree, hpw, hfile, henv⟩ := h
  obtain ⟨hmerged, hwarnings⟩ := agree_mergeDefaults hagree d.wf d'.wf
  rw [PasswordsFit, mqttPassword, mqttPassword, ← mqtt_mergeDefaults d.wf rfl,
    ← mqtt_mergeDefaults d'.wf rfl] at hpw
  rw [← mqtt_mergeDefaults d.wf rfl] at hfile
  rw [fromYaml_eq, fromYaml_eq, hd, hd', Outcome.bind, Outcome.bind, fromDocument_eq, fromDocument_eq,
    ← hwarnings]
  refine Outcome.Alike.bind (.of_eq (validate_of_agree hmerged hpw)) fun _ _ _ => ?_
  refine (fromData_of_agree hmerged hpw hfile henv _ hostname).imp fun c c' hc hc' hsame => ?_
  obtain ⟨hdata, hdata', hsame⟩ := hsame
  obtain ⟨hhostname, hpath⟩ := frame_of_fromData hc
  obtain ⟨hhostname', hpath'⟩ := frame_of_fromData hc'
  exact
    { data := by rw [hdata, hdata']; exact hmerged
      path := hpath.trans hpath'.symm
      warnings := hsame.warnings
      hostname := hhostname.trans hhostname'.symm
      topicPrefix := hsame.topicPrefix
      statusTopic := hsame.statusTopic
      jsonTopic := hsame.jsonTopic
      uptimeTopic := hsame.uptimeTopic }

/-- **Two files, two twins.** -/
theorem twin_of_load {lib : SerdeYaml} {process process' : Process} {path : Option String}
    {hostname : Option String} {defaultPath yaml yaml' : String} {d d' : Document}
    (hread : process.readConfig (path.getD defaultPath) = .ok yaml)
    (hread' : process'.readConfig (path.getD defaultPath) = .ok yaml')
    (hname : process.hostname = process'.hostname)
    (h : Texts lib yaml yaml' process.env process'.env d d') :
    Outcome.Alike Twin (loadWithDefault lib platform process path none hostname defaultPath)
      (loadWithDefault lib platform process' path none hostname defaultPath) := by
  have hhostname : hostnameOr process hostname = hostnameOr process' hostname := by
    cases hostname with
    | none => rw [hostnameOr, hostnameOr, hname]
    | some name => rfl
  rw [loadWithDefault, loadWithDefault]
  simp only [configText, hread, hread', Outcome.ok_bind, if_true]
  refine Outcome.Alike.bind (.of_eq hhostname) fun name _ hname => ?_
  subst hname
  refine Outcome.Alike.bind ((twin_of_fromYaml h name).mapErr _) fun c d htwin => .ok ?_
  exact { htwin with
    path := rfl
    warnings := by rw [htwin.warnings] }

/-! ## What is read of a configuration -/

namespace Twin

variable {c d : Config}

theorem field (h : Twin c d) (keys : List String) (hkeys : "password" ∉ keys) :
    Agree false (keys.foldl Value.index c.data) (keys.foldl Value.index d.data) :=
  agree_field keys h.data hkeys

theorem bool (h : Twin c d) (keys : List String) (hkeys : "password" ∉ keys) :
    (keys.foldl Value.index c.data).asBool = (keys.foldl Value.index d.data).asBool :=
  (h.field keys hkeys).asBool

theorem u64 (h : Twin c d) (keys : List String) (hkeys : "password" ∉ keys) :
    (keys.foldl Value.index c.data).asU64 = (keys.foldl Value.index d.data).asU64 :=
  (h.field keys hkeys).asU64

theorem str (h : Twin c d) (keys : List String) (hkeys : "password" ∉ keys) :
    (keys.foldl Value.index c.data).asStr = (keys.foldl Value.index d.data).asStr :=
  (h.field keys hkeys).asStr

theorem redacted (h : Twin c d) : c.redacted = d.redacted := h.data.redact

theorem meminfoTopic (h : Twin c d) (field : String) :
    c.meminfoTopic platform field = d.meminfoTopic platform field :=
  meminfoTopic_of_agree h.data h.hostname h.topicPrefix field

theorem clientId (h : Twin c d) : c.clientId = d.clientId := by
  have hid := h.str ["mqtt", "client_id"] (by decide)
  simp only [List.foldl_cons, List.foldl_nil] at hid
  rw [Config.clientId, Config.clientId, hid, h.hostname]

theorem meminfoFields (h : Twin c d) : c.meminfoFields = d.meminfoFields := by
  have hfields := (h.field ["metrics", "meminfo", "fields"] (by decide)).asSequence
  simp only [List.foldl_cons, List.foldl_nil] at hfields
  have htexts : ∀ vs : List Value,
      (Outcome.mapM (fun v => .unwrap v.asStr) vs : Outcome ConfigError (List String)) =
        Outcome.mapM .unwrap (vs.map Value.asStr) := by
    intro vs
    induction vs with
    | nil => rfl
    | cons v vs ih => rw [Outcome.mapM, ih, List.map_cons, Outcome.mapM]
  rw [Config.meminfoFields, Config.meminfoFields]
  cases hc : (((c.data.index "metrics").index "meminfo").index "fields").asSequence with
  | none =>
    rw [hc] at hfields
    rw [Option.map_eq_none_iff.1 hfields.symm]
  | some vs =>
    rw [hc] at hfields
    obtain ⟨ws, hws, hmap⟩ := Option.map_eq_some_iff.1 hfields.symm
    rw [hws, Outcome.unwrap_some, Outcome.unwrap_some, Outcome.ok_bind, Outcome.ok_bind, htexts,
      htexts, hmap]

theorem uptimeEnabled (h : Twin c d) : c.uptimeEnabled = d.uptimeEnabled :=
  congrArg Outcome.unwrap (h.bool ["metrics", "uptime_minutes", "enabled"] (by decide))

theorem meminfoEnabled (h : Twin c d) : c.meminfoEnabled = d.meminfoEnabled :=
  congrArg Outcome.unwrap (h.bool ["metrics", "meminfo", "enabled"] (by decide))

/-- A collection is the same. -/
theorem collect (h : Twin c d) (host : Host) : collect c host = collect d host := by
  rw [Reporter.collect, Reporter.collect, h.meminfoFields, h.uptimeEnabled, h.meminfoEnabled,
    h.hostname]

/-- So are the messages that are made of it. -/
theorem messagesFor (h : Twin c d) (snapshot : Snapshot) :
    messagesFor platform c snapshot = messagesFor platform d snapshot := by
  have hplain := h.bool ["report", "publish_plain"] (by decide)
  have hjson := h.bool ["report", "publish_json"] (by decide)
  simp only [List.foldl_cons, List.foldl_nil] at hplain hjson
  have hfield : fieldMessage platform c = fieldMessage platform d := by
    funext e
    rw [fieldMessage, fieldMessage, h.meminfoTopic]
  rw [Reporter.messagesFor, Reporter.messagesFor, plainMessages, plainMessages, meminfoMessages,
    meminfoMessages, hplain, hjson, h.uptimeEnabled, h.meminfoEnabled, h.uptimeTopic, h.jsonTopic,
    hfield]

theorem loggedInterval (h : Twin c d) : loggedInterval c = loggedInterval d :=
  congrArg Outcome.unwrap (h.u64 ["report", "interval_secs"] (by decide))

theorem connectWait (h : Twin c d) : connectWait c = connectWait d := by
  have hsecs := h.u64 ["mqtt", "reconnect_max_delay_secs"] (by decide)
  simp only [List.foldl_cons, List.foldl_nil] at hsecs
  rw [SystemReport.connectWait, SystemReport.connectWait, hsecs]

/-- The reporters differ in nothing but the configuration. -/
theorem withIo (h : Twin c d) (now : Duration) :
    Outcome.Alike (fun r r' => r' = { r with cfg := d } ∧ r.cfg = c) (withIo c now) (withIo d now) := by
  have hsecs := h.u64 ["report", "interval_secs"] (by decide)
  have hstart := h.bool ["report", "report_on_start"] (by decide)
  simp only [List.foldl_cons, List.foldl_nil] at hsecs hstart
  rw [Reporter.withIo, Reporter.withIo, hsecs, hstart]
  refine Outcome.Alike.bind (.of_eq rfl) fun secs _ hsecs => ?_
  refine Outcome.Alike.bind (.of_eq rfl) fun pending _ hpending => ?_
  subst hsecs hpending
  exact .ok ⟨rfl, rfl⟩

end Twin
end Config

/-! ## The publisher -/

namespace Mqtt

variable {Certificate Identity Connector : Type}

/-- Two publishers that differ in nothing but the password they log in with. -/
structure SameButPassword (p p' : Publisher Connector) : Prop where
  options : { p.options with credentials := none } = { p'.options with credentials := none }
  user : p.options.credentials.map Prod.fst = p'.options.credentials.map Prod.fst
  settings : p.settings = p'.settings
  timeout : p.timeout = p'.timeout
  state : p.state = p'.state

variable {c d : Config} (lib : NativeTls Certificate Identity Connector) (platform : Platform)

/-- The transport does not depend on secrets. -/
theorem transport_of_agree {v w : Value} (h : Agree false v w) :
    transport lib platform v = transport lib platform w := by
  have hfield (key : String) (hkey : key ≠ "password") : Agree false (v.index key) (w.index key) :=
    h.index_of_ne hkey
  have henabled := (hfield "enabled" (by decide)).asBool
  have hinsecure := (hfield "insecure" (by decide)).asBool
  have hroots := (hfield "ca_certs" (by decide)).asStr
  have hcert := (hfield "certfile" (by decide)).asStr
  have hkey := (hfield "keyfile" (by decide)).asStr
  rw [transport, transport, henabled, connector, connector, rootCertificates, rootCertificates,
    clientIdentity, clientIdentity, hroots, hcert, hkey, hinsecure]

theorem mqttOptions_of_twin (h : Twin c d) :
    Outcome.Alike (fun o o' => { o with credentials := none } = { o' with credentials := none } ∧
      o.credentials.map Prod.fst = o'.credentials.map Prod.fst) (mqttOptions lib platform c)
      (mqttOptions lib platform d) := by
  have hhost := h.str ["mqtt", "host"] (by decide)
  have hport := h.u64 ["mqtt", "port"] (by decide)
  have hclean := h.bool ["mqtt", "clean_session"] (by decide)
  have halive := h.u64 ["mqtt", "keepalive_secs"] (by decide)
  have huser := h.str ["mqtt", "username"] (by decide)
  have hoffline := h.str ["topics", "payload_offline"] (by decide)
  have hretain := h.bool ["topics", "status_retain"] (by decide)
  have htls := transport_of_agree lib platform (h.field ["mqtt", "tls"] (by decide))
  simp only [List.foldl_cons, List.foldl_nil] at hhost hport hclean halive huser hoffline hretain htls
  rw [mqttOptions, mqttOptions]
  simp only [hhost, hport, hclean, halive, huser, hoffline, hretain, htls, h.clientId, h.statusTopic]
  refine Outcome.Alike.bind (.of_eq rfl) fun host _ hsame => ?_
  subst hsame
  refine Outcome.Alike.bind (.of_eq rfl) fun port _ hsame => ?_
  subst hsame
  refine Outcome.Alike.bind (.of_eq rfl) fun clean _ hsame => ?_
  subst hsame
  refine Outcome.Alike.bind (.of_eq rfl) fun alive _ hsame => ?_
  subst hsame
  refine Outcome.Alike.bind (.of_eq rfl) fun offline _ hsame => ?_
  subst hsame
  refine Outcome.Alike.bind (.of_eq rfl) fun retain _ hsame => ?_
  subst hsame
  refine Outcome.Alike.bind (.of_eq rfl) fun transport _ hsame => ?_
  subst hsame
  refine .ok ⟨rfl, ?_⟩
  rw [Option.map_map, Option.map_map]
  rfl

theorem settings_of_twin (h : Twin c d) (usizeMax : ℕ) (cleanSession : Bool) :
    settings usizeMax c cleanSession = settings usizeMax d cleanSession := by
  have honline := h.str ["topics", "payload_online"] (by decide)
  have hoffline := h.str ["topics", "payload_offline"] (by decide)
  have hstatus := h.bool ["topics", "status_retain"] (by decide)
  have hqos := h.u64 ["mqtt", "qos"] (by decide)
  have hretain := h.bool ["mqtt", "retain"] (by decide)
  have htimeout := (h.field ["mqtt", "publish_timeout_secs"] (by decide)).asF64
  have hrecreate := h.u64 ["mqtt", "recreate_client_after_secs"] (by decide)
  have hmin := h.u64 ["mqtt", "reconnect_min_delay_secs"] (by decide)
  have hmax := h.u64 ["mqtt", "reconnect_max_delay_secs"] (by decide)
  have hcapacity := h.u64 ["mqtt", "max_queued_messages"] (by decide)
  simp only [List.foldl_cons, List.foldl_nil] at honline hoffline hstatus hqos hretain
  simp only [List.foldl_cons, List.foldl_nil] at htimeout hrecreate hmin hmax hcapacity
  rw [settings, settings, honline, hoffline, hstatus, hqos, hretain, htimeout, hrecreate, hmin, hmax,
    hcapacity, h.statusTopic]

/-- **The publishers differ in the password only.** -/
theorem withClock_of_twin (h : Twin c d) (usizeMax : ℕ) (now : Duration) :
    Outcome.Alike SameButPassword (withClock lib platform usizeMax c now)
      (withClock lib platform usizeMax d now) := by
  rw [withClock, withClock]
  refine Outcome.Alike.bind (mqttOptions_of_twin lib platform h) fun o o' hoptions => ?_
  obtain ⟨hoptions, huser⟩ := hoptions
  have hclean : o.cleanSession = o'.cleanSession := (MqttOptions.mk.inj hoptions).2.2.2.1
  rw [settings_of_twin h, hclean]
  refine Outcome.Alike.bind (.of_eq rfl) fun s _ hsame => ?_
  subst hsame
  exact .ok ⟨hoptions, huser, rfl, rfl, rfl⟩

end Mqtt
end SystemReport
