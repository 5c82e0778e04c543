import SystemReport.Collectors
import SystemReport.Config.FieldTopics
import SystemReport.Mqtt.Setup

/-!
# Reports

What `Reporter` in `src/reporter.rs` collects and publishes.  The topics of the messages are formed
when a report is made, from the names of the fields that came back from the collectors; that they
cannot fail there is `report_of_accepted`.
-/

set_option autoImplicit false

open Yaml

namespace SystemReport
namespace Reporter

open Config Collectors Outcome

/-! ## The model -/

/-- `collect`. -/
def collect (cfg : Config) (host : Host) : Outcome ConfigError Snapshot := do
  let fields ← cfg.meminfoFields
  let wantUptime ← cfg.uptimeEnabled
  let wantMeminfo ← cfg.meminfoEnabled
  .ok (collectWithReader ⟨fields, wantUptime, wantMeminfo, some cfg.hostname, none⟩ host)

/-- The message about one field. -/
def fieldMessage (platform : Platform) (cfg : Config) (e : String × ℤ) :
    Outcome ConfigError (String × String) := do
  let topic ← cfg.meminfoTopic platform e.1
  .ok (topic, toString e.2)

/-- The messages about the fields, if the metric is enabled. -/
def meminfoMessages (platform : Platform) (cfg : Config) (snapshot : Snapshot) :
    Outcome ConfigError (List (String × String)) := do
  let enabled ← cfg.meminfoEnabled
  if enabled then .mapM (fieldMessage platform cfg) snapshot.meminfo else .ok []

/-- The plain part of `messages_for`, if it is enabled. -/
def plainMessages (platform : Platform) (cfg : Config) (snapshot : Snapshot) :
    Outcome ConfigError (List (String × String)) := do
  let plain ← .unwrap ((cfg.data.index "report").index "publish_plain").asBool
  if plain then do
    let uptimeEnabled ← cfg.uptimeEnabled
    let uptime := if uptimeEnabled then snapshot.uptimeMinutes else none
    let meminfo ← meminfoMessages platform cfg snapshot
    .ok ((uptime.map fun value => (cfg.uptimeTopic, toString value)).toList ++ meminfo)
  else .ok []

/-- The document of the JSON message. -/
def document (platform : Platform) (snapshot : Snapshot) : String :=
  platform.json.toString (.object (toJsonDict platform.toLowercase snapshot true))

/-- `messages_for`. -/
def messagesFor (platform : Platform) (cfg : Config) (snapshot : Snapshot) :
    Outcome ConfigError (List (String × String)) := do
  let plain ← plainMessages platform cfg snapshot
  let json ← .unwrap ((cfg.data.index "report").index "publish_json").asBool
  .ok (plain ++ if json then [(cfg.jsonTopic, document platform snapshot)] else [])

/-! ## No panic -/

section Shaped

variable (platform : Platform) {cfg : Config}

theorem meminfoFields_isOk (h : Shaped cfg.data) : ∃ fields, cfg.meminfoFields = .ok fields := by
  obtain ⟨vs, hvs, -, htext⟩ := fields_of_shaped h
  refine ⟨vs.map fun v => v.asStr.getD "", ?_⟩
  rw [meminfoFields, hvs, unwrap_some, ok_bind]
  refine mapM_eq_ok fun v hv => ?_
  obtain ⟨s, hs, -⟩ := htext v hv
  rw [hs]
  rfl

theorem uptimeEnabled_isOk (h : Shaped cfg.data) : ∃ b, cfg.uptimeEnabled = .ok b :=
  (h.bool ["metrics", "uptime_minutes", "enabled"] rfl).imp fun _ => congrArg unwrap

theorem meminfoEnabled_isOk (h : Shaped cfg.data) : ∃ b, cfg.meminfoEnabled = .ok b :=
  (h.bool ["metrics", "meminfo", "enabled"] rfl).imp fun _ => congrArg unwrap

/-- **`messages_for` does not panic** on any snapshot. -/
theorem messagesFor_ne_panicked (h : Shaped cfg.data) (snapshot : Snapshot) :
    messagesFor platform cfg snapshot ≠ .panicked := by
  refine bind_ne_panicked ?_ fun _ _ => unwrap_bind_ne_panicked (h.bool ["report", "publish_json"] rfl)
    fun _ => nofun
  refine unwrap_bind_ne_panicked (h.bool ["report", "publish_plain"] rfl) fun plain => ?_
  split
  · obtain ⟨uptime, huptime⟩ := uptimeEnabled_isOk h
    obtain ⟨meminfo, hmeminfo⟩ := meminfoEnabled_isOk h
    rw [huptime, ok_bind, meminfoMessages, hmeminfo, ok_bind]
    refine bind_ne_panicked ?_ fun _ _ => nofun
    split
    · exact mapM_ne_panicked fun e _ =>
        bind_ne_panicked (meminfoTopic_ne_panicked h e.1) fun _ _ => nofun
    · exact nofun
  · exact nofun

end Shaped

/-! ## What a report is to say -/

/-- The settings that decide what a report says. -/
structure Plan where
  plain : Bool
  json : Bool
  uptime : Bool
  meminfo : Bool
  fields : List String

/-- The plan that a configuration sets out. -/
structure Plan.Of (cfg : Config) (plan : Plan) : Prop where
  plain : ((cfg.data.index "report").index "publish_plain").asBool = some plan.plain
  json : ((cfg.data.index "report").index "publish_json").asBool = some plan.json
  uptime : cfg.uptimeEnabled = .ok plan.uptime
  meminfo : cfg.meminfoEnabled = .ok plan.meminfo
  fields : cfg.meminfoFields = .ok plan.fields

/-- The messages of a report: the uptime, the fields that are present, and the document. -/
def Plan.messages (plan : Plan) (cfg : Config) (topic : String → String) (host : Host)
    (document : String) : List (String × String) :=
  (if plan.plain && plan.uptime then
    ((uptimeOf host).map fun minutes => (cfg.uptimeTopic, toString minutes)).toList else []) ++
  (if plan.plain && plan.meminfo then
    (presentIn host plan.fields).map fun e => (topic e.1, toString e.2) else []) ++
  if plan.json then [(cfg.jsonTopic, document)] else []

variable {platform : Platform} {cfg : Config}

/-- A configuration of the right shape sets out a plan. -/
theorem plan_of_shaped (h : Shaped cfg.data) : ∃ plan, Plan.Of cfg plan := by
  obtain ⟨plain, hplain⟩ := h.bool ["report", "publish_plain"] rfl
  obtain ⟨json, hjson⟩ := h.bool ["report", "publish_json"] rfl
  obtain ⟨uptime, huptime⟩ := uptimeEnabled_isOk h
  obtain ⟨meminfo, hmeminfo⟩ := meminfoEnabled_isOk h
  obtain ⟨fields, hfields⟩ := meminfoFields_isOk h
  exact ⟨⟨plain, json, uptime, meminfo, fields⟩, hplain, hjson, huptime, hmeminfo, hfields⟩

/-- The topic of a field, where there is one. -/
def fieldTopic (platform : Platform) (cfg : Config) (field : String) : String :=
  match cfg.meminfoTopic platform field with
  | .ok topic => topic
  | _ => ""

/-- The fields that the collectors report have passed the check at startup. -/
theorem meminfoTopic_of_plan {plan : Plan} (h : Accepted platform cfg) (hplan : Plan.Of cfg plan)
    {field : String} (hfield : field ∈ plan.fields) :
    cfg.meminfoTopic platform field = .ok (fieldTopic platform cfg field) := by
  obtain ⟨topic, htopic⟩ := exists_meminfoTopic h hplan.fields hfield
  rw [fieldTopic, htopic]

theorem publishTopic_of_meminfoTopic {field topic : String}
    (h : cfg.meminfoTopic platform field = .ok topic) : PublishTopic topic := by
  obtain ⟨_, -, h⟩ := bind_eq_ok.1 h
  obtain ⟨_, -, h⟩ := bind_eq_ok.1 h
  obtain ⟨_, hcheck, h⟩ := bind_eq_ok.1 h
  cases h
  exact checkTopic_eq_ok.1 hcheck

theorem collect_of_plan {plan : Plan} (hplan : Plan.Of cfg plan) (host : Host) :
    collect cfg host = .ok (collectWithReader
      ⟨plan.fields, plan.uptime, plan.meminfo, some cfg.hostname, none⟩ host) := by
  rw [collect, hplan.fields, ok_bind, hplan.uptime, ok_bind, hplan.meminfo, ok_bind]

theorem meminfoMessages_of_plan {plan : Plan} (hplan : Plan.Of cfg plan) {snapshot : Snapshot}
    {topic : String → String}
    (h : ∀ e ∈ snapshot.meminfo, cfg.meminfoTopic platform e.1 = .ok (topic e.1)) :
    meminfoMessages platform cfg snapshot =
      .ok (if plan.meminfo then snapshot.meminfo.map fun e => (topic e.1, toString e.2) else []) := by
  rw [meminfoMessages, hplan.meminfo, ok_bind]
  split
  · refine mapM_eq_ok fun e he => ?_
    rw [fieldMessage, h e he, ok_bind]
  · rfl

theorem plainMessages_of_plan {plan : Plan} (hplan : Plan.Of cfg plan) {snapshot : Snapshot}
    {topic : String → String}
    (h : ∀ e ∈ snapshot.meminfo, cfg.meminfoTopic platform e.1 = .ok (topic e.1)) :
    plainMessages platform cfg snapshot = .ok (if plan.plain then
      ((if plan.uptime then snapshot.uptimeMinutes else none).map fun value =>
        (cfg.uptimeTopic, toString value)).toList ++
      (if plan.meminfo then snapshot.meminfo.map fun e => (topic e.1, toString e.2) else [])
      else []) := by
  rw [plainMessages, hplan.plain, unwrap_some, ok_bind]
  split
  · rw [hplan.uptime, ok_bind, meminfoMessages_of_plan hplan h, ok_bind]
  · rfl

/-- **A report says what it is to say.** -/
theorem messagesFor_of_plan {plan : Plan} (hplan : Plan.Of cfg plan) (host : Host)
    {topic : String → String}
    (h : ∀ field ∈ plan.fields, cfg.meminfoTopic platform field = .ok (topic field)) :
    ∃ snapshot, collect cfg host = .ok snapshot ∧
      messagesFor platform cfg snapshot =
        .ok (plan.messages cfg topic host (document platform snapshot)) := by
  refine ⟨_, collect_of_plan hplan host, ?_⟩
  have hmem := meminfo_collect
    ⟨plan.fields, plan.uptime, plan.meminfo, some cfg.hostname, none⟩ host
  have hup := uptimeMinutes_collect
    ⟨plan.fields, plan.uptime, plan.meminfo, some cfg.hostname, none⟩ host
  generalize collectWithReader
    ⟨plan.fields, plan.uptime, plan.meminfo, some cfg.hostname, none⟩ host = snapshot at hmem hup ⊢
  have htopic : ∀ e ∈ snapshot.meminfo, cfg.meminfoTopic platform e.1 = .ok (topic e.1) := by
    intro e he
    rw [hmem] at he
    split at he
    · exact h e.1 (mem_of_presentIn he)
    · cases he
  rw [messagesFor, plainMessages_of_plan hplan htopic, ok_bind, hplan.json, unwrap_some, ok_bind,
    Plan.messages, hmem, hup]
  cases plan.plain <;> cases plan.uptime <;> cases plan.meminfo <;> rfl

/-- A report has a message, if it has a document. -/
theorem messages_ne_nil {snapshot : Snapshot} {messages : List (String × String)}
    (hjson : ((cfg.data.index "report").index "publish_json").asBool = some true)
    (h : messagesFor platform cfg snapshot = .ok messages) : messages ≠ [] := by
  obtain ⟨plain, -, h⟩ := bind_eq_ok.1 h
  rw [hjson, unwrap_some, ok_bind] at h
  cases h
  simp

/-- Every topic of a report can be published to. -/
theorem publishTopic_of_mem {plan : Plan} (haccepted : Accepted platform cfg)
    {topic : String → String}
    (h : ∀ field ∈ plan.fields, cfg.meminfoTopic platform field = .ok (topic field)) {host : Host}
    {document : String} {m : String × String} (hm : m ∈ plan.messages cfg topic host document) :
    PublishTopic m.1 := by
  rw [Plan.messages] at hm
  rcases List.mem_append.1 hm with hm | hm
  · rcases List.mem_append.1 hm with hm | hm
    · split at hm
      · obtain ⟨minutes, -, rfl⟩ := Option.map_eq_some_iff.1 (Option.mem_toList.1 hm)
        exact haccepted.uptime
      · cases hm
    · split at hm
      · obtain ⟨e, he, rfl⟩ := List.mem_map.1 hm
        exact publishTopic_of_meminfoTopic (h e.1 (mem_of_presentIn he))
      · cases hm
  · split at hm
    · obtain rfl := List.mem_singleton.1 hm
      exact haccepted.json
    · cases hm

/-- **No report fails on a topic.**  Whatever the files below `/proc` hold, an accepted
configuration reports exactly what its plan says, and publishes it, its status and its last will to
topics that can be published to. -/
theorem report_of_accepted {Certificate Identity Connector : Type} (lib : SerdeYaml)
    (platform : Platform) (yaml hostname : String) (env : Env) (cfg : Config)
    (hcfg : fromYaml lib platform yaml hostname env = .ok cfg) (host : Host)
    (tls : Mqtt.NativeTls Certificate Identity Connector) (usizeMax : ℕ) (now : Duration) :
    ∃ plan topic snapshot messages, Plan.Of cfg plan ∧
      (∀ field ∈ plan.fields, cfg.meminfoTopic platform field = .ok (topic field)) ∧
      collect cfg host = .ok snapshot ∧ messagesFor platform cfg snapshot = .ok messages ∧
      messages = plan.messages cfg topic host (document platform snapshot) ∧
      (∀ m ∈ messages, PublishTopic m.1) ∧ PublishTopic cfg.statusTopic ∧
      ∀ publisher, Mqtt.withClock tls platform usizeMax cfg now = .ok publisher →
        publisher.options.lastWill.topic = cfg.statusTopic ∧
          publisher.settings.status = cfg.statusTopic := by
  obtain ⟨haccepted, -⟩ := accepted_of_fromYaml hcfg
  obtain ⟨plan, hplan⟩ := plan_of_shaped haccepted.shaped
  have htopic : ∀ field ∈ plan.fields, cfg.meminfoTopic platform field =
      .ok (fieldTopic platform cfg field) := fun _ => meminfoTopic_of_plan haccepted hplan
  obtain ⟨snapshot, hcollect, hmessages⟩ := messagesFor_of_plan hplan host htopic
  exact ⟨plan, _, snapshot, _, hplan, htopic, hcollect, hmessages, rfl,
    fun _ => publishTopic_of_mem haccepted htopic, haccepted.status,
    fun _ => Mqtt.statusTopic_of_withClock⟩

/-- A TLS library that has no certificates. -/
def noTls : Mqtt.NativeTls Unit Unit Unit where
  certificateFromPem _ := .error "not a certificate"
  identityFromPkcs8 _ _ := .error "not an identity"
  build _ := .ok ()

/-- A host with one field of memory and an uptime that cannot be read. -/
def smallHost : Host where
  now := "2026-09-20T12:34:56Z"
  hostname := .ok "host"
  reader path := if path = procMeminfo then .ok "Slab: 61204 kB\n" else .error "nope"

theorem report_of_accepted_defaults : ∃ cfg snapshot messages,
    fromYaml .defaultsOnly .empty "" "host" (fun _ => none) = .ok cfg ∧
      collect cfg smallHost = .ok snapshot ∧ messagesFor .empty cfg snapshot = .ok messages ∧
      ∀ m ∈ messages, PublishTopic m.1 := by
  obtain ⟨cfg, hcfg, -⟩ := fromYaml_defaultsOnly
  obtain ⟨_, _, snapshot, messages, -, -, hcollect, hmessages, -, htopic, -⟩ :=
    report_of_accepted _ _ _ _ _ cfg hcfg smallHost noTls (2 ^ 64 - 1) .zero
  exact ⟨cfg, snapshot, messages, hcfg, hcollect, hmessages, htopic⟩

end Reporter
end SystemReport
