import SystemReport.Config.Accepted
import SystemReport.Config.Agree

/-!
# Secrets do not show

`secret_noninterference` follows two documents that agree up to secrets through `from_yaml`:
merging, validation, template expansion and the warnings never tell them apart, whatever the two
secrets are.  Their redacted trees are equal exactly if the documents have the same keys, because
`redact_passwords` does not descend into keys (`secretKey_shows`).
-/

set_option autoImplicit false

open Yaml

namespace SystemReport
namespace Config

variable {deep : Bool} {platform : Platform}

/-! ## Validation -/

theorem any_isText {v w : Value} (h : Agree deep v w) : isText v = isText w := by
  rw [isText, isText, h.asStr]

theorem fits_of_agree {v w : Value} (h : Agree deep v w) (path : String) (default : Value) :
    fits path v default = fits path w default := by
  have hseq : ∀ x : Value, (x.asSequence.any fun vs => !vs.isEmpty && vs.all isText) =
      (x.asSequence.map (List.map Value.asStr)).any fun ss =>
        !ss.isEmpty && ss.all fun s => s.any fun s => !Text.isBlank s := by
    intro x
    cases x.asSequence with
    | none => rfl
    | some vs => simp only [Option.any_some, Option.map_some, List.isEmpty_map, List.all_map]; rfl
  cases default with
  | null => rw [fits, fits, h.isNull, any_isText h]
  | bool => rw [fits, fits, Value.isBool, Value.isBool, h.asBool]
  | number n => cases n with
    | float f => rw [fits, fits, h.asF64]
    | posInt n => exact congrArg (Option.any _) h.asU64
    | negInt i => exact congrArg (Option.any _) h.asU64
  | string => rw [fits, fits, h.isNull, h.asStr]
  | sequence => rw [fits, fits, hseq, hseq, h.asSequence]
  | mapping | tagged => rfl

mutual

/-- A tree of defaults without a key `password`. -/
def secretFree : Value → Bool
  | .mapping es => secretFreeEntries es
  | _ => true

def secretFreeEntries : List (Value × Value) → Bool
  | [] => true
  | (key, v) :: es => key.asStr != some "password" && secretFree v && secretFreeEntries es

end

mutual

theorem validateShape_of_agree : ∀ (default : Value) {v w : Value} (path : String),
    secretFree default = true → Agree deep v w →
    validateShape v default path = validateShape w default path
  | .mapping es, v, w, path, hfree, h => by
    rw [validateShape, validateShape, h.isMapping, validateEntries_of_agree es path hfree h]
  | .tagged _ _, _, _, _, _, _ => rfl
  | .null, _, _, path, _, h | .bool _, _, _, path, _, h | .number _, _, _, path, _, h
  | .string _, _, _, path, _, h | .sequence _, _, _, path, _, h =>
    congrArg (fun b => Outcome.ensure b _) (fits_of_agree h path _)

theorem validateEntries_of_agree : ∀ (entries : List (Value × Value)) {v w : Value}
    (path : String), secretFreeEntries entries = true → Agree deep v w →
    validateEntries v entries path = validateEntries w entries path
  | [], _, _, _, _, _ => rfl
  | (key, default) :: rest, v, w, path, hfree, h => by
    simp only [secretFreeEntries, Bool.and_eq_true, bne_iff_ne] at hfree
    obtain ⟨⟨hkey, hdefault⟩, hrest⟩ := hfree
    rw [validateEntries, validateEntries]
    cases hs : key.asStr with
    | none => rfl
    | some s =>
      have hne : s ≠ "password" := fun h => hkey (hs.trans (congrArg some h))
      rw [Outcome.unwrap_some, Outcome.ok_bind, Outcome.ok_bind,
        validateShape_of_agree default _ hdefault (h.index_of_ne hne),
        validateEntries_of_agree rest path hrest h]

end

theorem validateEntries_congr {v w : Value} {path : String} : ∀ {entries : Mapping},
    (∀ e ∈ entries, ∀ key, e.1.asStr = some key →
      validateShape (v.index key) e.2 (joinPath path key) =
        validateShape (w.index key) e.2 (joinPath path key)) →
    validateEntries v entries path = validateEntries w entries path
  | [], _ => rfl
  | (key, default) :: rest, h => by
    rw [List.forall_mem_cons] at h
    rw [validateEntries, validateEntries, validateEntries_congr h.2]
    cases hs : key.asStr with
    | none => rfl
    | some s => rw [Outcome.unwrap_some, Outcome.ok_bind, Outcome.ok_bind, h.1 s hs]

/-- `mqtt.password`. -/
def mqttPassword (v : Value) : Value := (v.index "mqtt").index "password"

/-- Two documents whose `mqtt.password` is the same, or a text that is not blank in both. -/
def PasswordsFit (v w : Value) : Prop :=
  mqttPassword v = mqttPassword w ∨
    (isText (mqttPassword v) = true ∧ isText (mqttPassword w) = true)

theorem validateShape_null {v w : Value} (path : String)
    (h : v = w ∨ (isText v = true ∧ isText w = true)) {default : Value}
    (hnull : default.isNull = true) (hbuiltIn : builtIn default = true) :
    validateShape v default path = validateShape w default path := by
  cases default with
  | null =>
    rcases h with rfl | ⟨hv, hw⟩
    · rfl
    · have hfits : fits path v .null = fits path w .null := by
        rw [fits, fits, hv, hw, Bool.or_true, Bool.or_true]
      exact congrArg (fun b => Outcome.ensure b _) hfits
  | tagged => cases hbuiltIn
  | _ => cases hnull

theorem validateShape_mqtt {v w : Value} (h : Agree deep v w)
    (hpw : v.index "password" = w.index "password" ∨
      (isText (v.index "password") = true ∧ isText (w.index "password") = true)) :
    validateShape v defaultMqtt "mqtt" = validateShape w defaultMqtt "mqtt" := by
  have hfree : ∀ e ∈ mqttEntries, secretFree e.2 = true := by decide
  have hnull : ∀ e ∈ mqttEntries, e.1.asStr = some "password" →
      e.2.isNull = true ∧ builtIn e.2 = true := by decide
  rw [defaultMqtt, validateShape, validateShape, h.isMapping]
  congr 1
  refine validateEntries_congr fun e he key hkey => ?_
  by_cases hsecret : key = "password"
  · subst hsecret
    obtain ⟨hn, hb⟩ := hnull e he hkey
    exact validateShape_null _ hpw hn hb
  · exact validateShape_of_agree e.2 _ (hfree e he) (h.index_of_ne hsecret)

theorem validateShape_defaults {v w : Value} (h : Agree deep v w) (hpw : PasswordsFit v w) :
    validateShape v defaults "" = validateShape w defaults "" := by
  rw [defaults, validateShape, validateShape, h.isMapping]
  congr 1
  refine validateEntries_congr fun e he key hkey => ?_
  simp only [List.mem_cons, List.not_mem_nil, or_false] at he
  rcases he with rfl | rfl | rfl | rfl | rfl <;> obtain rfl := Option.some.inj hkey
  · exact validateShape_mqtt (h.index_of_ne (by decide)) hpw
  · exact validateShape_of_agree _ _ (by decide) (h.index_of_ne (by decide))
  · exact validateShape_of_agree _ _ (by decide) (h.index_of_ne (by decide))
  · exact validateShape_of_agree _ _ (by decide) (h.index_of_ne (by decide))
  · exact validateShape_of_agree _ _ (by decide) (h.index_of_ne (by decide))

/-! ## Fields -/

theorem agree_field : ∀ (keys : List String) {v w : Value}, Agree deep v w → "password" ∉ keys →
    Agree deep (keys.foldl Value.index v) (keys.foldl Value.index w)
  | [], _, _, h, _ => h
  | key :: keys, v, w, h, hkeys => by
    rw [List.mem_cons, not_or] at hkeys
    exact agree_field keys (h.index_of_ne (Ne.symm hkeys.1)) hkeys.2

theorem agree_dig {v w : Value} (h : Agree deep v w) {path : String}
    (hpath : "password" ∉ Text.split path '.') : Agree deep (dig v path) (dig w path) :=
  agree_field _ h hpath

theorem crossChecks_of_agree {v w : Value} (h : Agree deep v w) :
    crossChecks v = crossChecks w := by
  have hmax : ((v.index "mqtt").index "reconnect_max_delay_secs").asU64 =
      ((w.index "mqtt").index "reconnect_max_delay_secs").asU64 :=
    (agree_field ["mqtt", "reconnect_max_delay_secs"] h (by decide)).asU64
  have hmin : ((v.index "mqtt").index "reconnect_min_delay_secs").asU64 =
      ((w.index "mqtt").index "reconnect_min_delay_secs").asU64 :=
    (agree_field ["mqtt", "reconnect_min_delay_secs"] h (by decide)).asU64
  have hstr : ∀ path, "password" ∉ Text.split path '.' → (dig v path).asStr = (dig w path).asStr :=
    fun path hpath => (agree_dig h hpath).asStr
  have hbool : ∀ path, "password" ∉ Text.split path '.' →
      (dig v path).asBool = (dig w path).asBool :=
    fun path hpath => (agree_dig h hpath).asBool
  simp only [crossChecks, Outcome.forEach, hmax, hmin, hstr "topics.status" (by decide),
    hstr "topics.json" (by decide), hstr "metrics.uptime_minutes.topic" (by decide),
    hstr "metrics.meminfo.topic" (by decide), hbool "metrics.uptime_minutes.enabled" (by decide),
    hbool "metrics.meminfo.enabled" (by decide), hbool "report.publish_plain" (by decide),
    hbool "report.publish_json" (by decide)]

theorem validate_of_agree {v w : Value} (h : Agree deep v w) (hpw : PasswordsFit v w) :
    validate v defaults = validate w defaults := by
  rw [validate, validate, validateShape_defaults h hpw, crossChecks_of_agree h]

theorem resolveTopic_of_agree {v w : Value} (h : Agree deep v w) {hostname pre key : String}
    (hkey : "password" ∉ Text.split key '.') :
    resolveTopic v hostname pre key = resolveTopic w hostname pre key := by
  rw [resolveTopic, resolveTopic, (agree_dig h hkey).asStr]

theorem resolveTopics_of_agree {v w : Value} (h : Agree deep v w) (hostname : String) :
    resolveTopics v hostname = resolveTopics w hostname := by
  have hpre : ((v.index "topics").index "prefix").asStr = ((w.index "topics").index "prefix").asStr :=
    (agree_field ["topics", "prefix"] h (by decide)).asStr
  have htopic : ∀ pre key, "password" ∉ Text.split key '.' →
      resolveTopic v hostname pre key = resolveTopic w hostname pre key :=
    fun _ _ hkey => resolveTopic_of_agree h hkey
  simp only [resolveTopics, hpre, htopic _ "topics.status" (by decide),
    htopic _ "topics.json" (by decide), htopic _ "metrics.uptime_minutes.topic" (by decide)]

/-- The warnings depend on whether there is a password, not on which. -/
theorem tlsWarnings_of_agree {v w : Value} (h : Agree deep v w) {p q : Option String}
    (hpq : p.isSome = q.isSome) : tlsWarnings v p = tlsWarnings w q := by
  have huser : ((v.index "mqtt").index "username").asStr = ((w.index "mqtt").index "username").asStr :=
    (agree_field ["mqtt", "username"] h (by decide)).asStr
  have hflag : ∀ key, "password" ∉ ["mqtt", "tls", key] →
      (((v.index "mqtt").index "tls").index key).asBool =
        (((w.index "mqtt").index "tls").index key).asBool :=
    fun key hkey => (agree_field ["mqtt", "tls", key] h hkey).asBool
  have hnone : p.isNone = q.isNone := by rw [← Option.not_isSome, ← Option.not_isSome, hpq]
  simp only [tlsWarnings, huser, hflag "enabled" (by decide), hflag "insecure" (by decide), hpq,
    hnone]

theorem meminfoTopic_of_agree {c d : Config} (h : Agree deep c.data d.data)
    (hhost : c.hostname = d.hostname) (hpre : c.topicPrefix = d.topicPrefix) (field : String) :
    c.meminfoTopic platform field = d.meminfoTopic platform field := by
  have htemplate : (dig c.data "metrics.meminfo.topic").asStr =
      (dig d.data "metrics.meminfo.topic").asStr := (agree_dig h (by decide)).asStr
  simp only [meminfoTopic, htemplate, hhost, hpre]

/-- A loop over texts looks only at the texts. -/
theorem forEach_asStr (f : String → Outcome ConfigError PUnit) : ∀ {vs ws : List Value},
    vs.map Value.asStr = ws.map Value.asStr →
    (Outcome.forEach (fun v => Outcome.unwrap v.asStr >>= f) vs) =
      Outcome.forEach (fun v => Outcome.unwrap v.asStr >>= f) ws
  | [], [], _ => rfl
  | v :: vs, w :: ws, h => by
    obtain ⟨hvw, hrest⟩ := List.cons.inj h
    rw [Outcome.forEach, Outcome.forEach, hvw, forEach_asStr f hrest]

theorem checkMeminfo_of_agree {c d : Config} (h : Agree deep c.data d.data)
    (hhost : c.hostname = d.hostname) (hpre : c.topicPrefix = d.topicPrefix) :
    c.checkMeminfo platform = d.checkMeminfo platform := by
  have hfields := (agree_field ["metrics", "meminfo", "fields"] h (by decide)).asSequence
  simp only [List.foldl_cons, List.foldl_nil] at hfields
  rw [checkMeminfo, checkMeminfo]
  simp only [meminfoTopic_of_agree h hhost hpre]
  cases hc : (((c.data.index "metrics").index "meminfo").index "fields").asSequence with
  | none =>
    rw [hc] at hfields
    rw [Option.map_eq_none_iff.1 hfields.symm]
  | some vs =>
    rw [hc] at hfields
    obtain ⟨ws, hws, hmap⟩ := Option.map_eq_some_iff.1 hfields.symm
    rw [hws, Outcome.unwrap_some, Outcome.unwrap_some, Outcome.ok_bind, Outcome.ok_bind]
    exact forEach_asStr _ hmap.symm

/-! ## The password -/

/-- The variable named by `mqtt.password_env` of a merged tree. -/
def passwordEnv (data : Value) : Option String :=
  ((data.index "mqtt").index "password_env").asStr

/-- Two environments that differ in nothing but the value of one variable, which is set in both. -/
def EnvAgree (name : Option String) (env env' : Env) : Prop :=
  ∀ key, env key = env' key ∨ (name = some key ∧ (∃ a, a ≠ "" ∧ env key = some a) ∧
    ∃ b, b ≠ "" ∧ env' key = some b)

theorem envSecret_of_agree {v w : Value} {env env' : Env}
    (hname : (v.index "password_env").asStr = (w.index "password_env").asStr)
    (henv : EnvAgree (v.index "password_env").asStr env env') :
    envSecret v env = envSecret w env' ∨
      ∃ a b, envSecret v env = some a ∧ envSecret w env' = some b := by
  rw [envSecret, envSecret, ← hname]
  cases hkey : (v.index "password_env").asStr with
  | none => exact .inl rfl
  | some key =>
    rcases henv key with hsame | ⟨-, ⟨a, ha, hkeya⟩, b, hb, hkeyb⟩
    · left
      rw [Option.bind_some, Option.bind_some, hsame]
    · right
      refine ⟨a, b, ?_, ?_⟩
      · rw [Option.bind_some, hkeya]
        simp [ha]
      · rw [Option.bind_some, hkeyb]
        simp [hb]

theorem asStr_of_isNull {v : Value} (h : v.isNull = true) : v.asStr = none := by
  rw [Value.isNull] at h
  rw [Value.asStr]
  split at h
  · rename_i hu
    rw [hu]
  · cases h

/-- Without a password file, either there is no password in both cases, or there is one, found in
the same place. -/
theorem resolve_of_agree {v w : Value} {env env' : Env} (h : Agree deep v w)
    (hpw : v.index "password" = w.index "password" ∨
      (isText (v.index "password") = true ∧ isText (w.index "password") = true))
    (hfile : (v.index "password_file").isNull = true)
    (henv : EnvAgree (v.index "password_env").asStr env env') :
    Outcome.Alike (fun a b => a.1.isSome = b.1.isSome ∧ a.2 = b.2) (resolve platform v env)
      (resolve platform w env') := by
  have hnone : (v.index "password_file").asStr = none := asStr_of_isNull hfile
  have hnone' : (w.index "password_file").asStr = none :=
    (h.index_of_ne (by decide)).asStr.symm.trans hnone
  rw [resolve, resolve, hnone, hnone']
  rcases envSecret_of_agree (h.index_of_ne (by decide)).asStr henv with
    hsame | ⟨a, b, ha, hb⟩
  · dsimp only
    rw [← hsame]
    cases envSecret v env with
    | some secret => exact .ok ⟨rfl, rfl⟩
    | none =>
      dsimp only
      rcases hpw with hpw | ⟨htext, htext'⟩
      · rw [hpw]
        cases (w.index "password").asStr with
        | some secret => exact .ok ⟨rfl, rfl⟩
        | none => exact .ok ⟨rfl, rfl⟩
      · obtain ⟨s, hs, -⟩ := (Option.any_eq_true _ _).1 htext
        obtain ⟨s', hs', -⟩ := (Option.any_eq_true _ _).1 htext'
        rw [hs, hs']
        exact .ok ⟨rfl, rfl⟩
  · rw [ha, hb]
    exact .ok ⟨rfl, rfl⟩

/-! ## The whole of `from_yaml` -/

/-- Two configurations that print, log and publish the same, except that their redacted trees may
differ. -/
structure SamePublic (platform : Platform) (c d : Config) : Prop where
  warnings : c.warnings = d.warnings
  topicPrefix : c.topicPrefix = d.topicPrefix
  statusTopic : c.statusTopic = d.statusTopic
  jsonTopic : c.jsonTopic = d.jsonTopic
  uptimeTopic : c.uptimeTopic = d.uptimeTopic
  meminfoTopic : ∀ field, c.meminfoTopic platform field = d.meminfoTopic platform field
  clientId : c.clientId = d.clientId

theorem fromData_of_agree {v w : Value} {env env' : Env} (h : Agree deep v w)
    (hpw : PasswordsFit v w) (hfile : ((v.index "mqtt").index "password_file").isNull = true)
    (henv : EnvAgree (passwordEnv v) env env') (warnings : List String) (hostname : String) :
    Outcome.Alike (fun c d => c.data = v ∧ d.data = w ∧ SamePublic platform c d)
      (fromData platform v warnings hostname env) (fromData platform w warnings hostname env') := by
  have hmqtt : Agree deep (v.index "mqtt") (w.index "mqtt") := h.index_of_ne (by decide)
  refine Outcome.Alike.bind (.of_eq (resolveTopics_of_agree h hostname)) fun topics _ htopics => ?_
  subst htopics
  refine Outcome.Alike.bind (resolve_of_agree hmqtt hpw hfile henv) fun p q hpq => ?_
  refine Outcome.Alike.bind (.of_eq (tlsWarnings_of_agree h hpq.1)) fun more _ hmore => ?_
  subst hmore
  refine Outcome.Alike.bind (.of_eq (checkMeminfo_of_agree h rfl rfl)) fun _ _ _ => ?_
  refine .ok ⟨rfl, rfl, ?_⟩
  have hid : ((v.index "mqtt").index "client_id").asStr = ((w.index "mqtt").index "client_id").asStr :=
    (hmqtt.index_of_ne (by decide)).asStr
  exact
    { warnings := by dsimp only; rw [hpq.2]
      topicPrefix := rfl
      statusTopic := rfl
      jsonTopic := rfl
      uptimeTopic := rfl
      meminfoTopic := fun field => by apply meminfoTopic_of_agree h <;> rfl
      clientId := by rw [clientId, clientId, hid] }

theorem index_of_not_mapping {v : Value} (h : v.asMapping = none) (key : String) :
    v.index key = .null := by
  rw [Value.index, h]

/-- A field whose default is null is what the overlay has there. -/
theorem index_deepMerge_null {base overlay : Value} (path key : String) (hb : base.wf = true)
    (ho : overlay.wf = true) (hmap : base.isMapping = true)
    (hnull : base.index key = .null) :
    (deepMerge base overlay path).1.index key = overlay.index key := by
  cases hov : overlay.asMapping with
  | none =>
    rw [deepMerge_of_not_mapping (by rw [Value.isMapping_eq_false.2 hov, Bool.and_false])]
  | some entries =>
    obtain ⟨old, hold⟩ := Value.isMapping_iff.1 hmap
    rw [index_deepMerge path key hold hov
      (Mapping.distinct_of_wf (Value.wf_of_asMapping hb hold))
      (Mapping.distinct_of_wf (Value.wf_of_asMapping ho hov)), Value.index_of_asMapping hov, hnull]
    cases Mapping.get entries (.string key) with
    | none => rfl
    | some v => exact congrArg Prod.fst (deepMerge_null v _)

/-- A field of `mqtt` whose default is null is, in the merged tree, what the document has there. -/
theorem mqtt_mergeDefaults {raw : Value} (h : raw.wf = true) {key : String}
    (hnull : defaultMqtt.index key = .null) :
    ((mergeDefaults defaults raw).1.index "mqtt").index key = (raw.index "mqtt").index key := by
  rw [mergeDefaults]
  split
  · rename_i hraw
    have hmap : raw.asMapping = none := by
      rw [Value.isNull] at hraw
      rw [Value.asMapping]
      split at hraw
      · rename_i hu
        rw [hu]
      · cases hraw
    rw [index_of_not_mapping hmap]
    exact hnull
  · cases hmap : raw.asMapping with
    | none =>
      rw [deepMerge_of_not_mapping (by rw [Value.isMapping_eq_false.2 hmap, Bool.and_false])]
    | some entries =>
      rw [index_deepMerge "" "mqtt" rfl hmap (Mapping.distinct_of_wf wf_defaults)
        (Mapping.distinct_of_wf (Value.wf_of_asMapping h hmap)), Value.index_of_asMapping hmap]
      cases hget : Mapping.get entries (.string "mqtt") with
      | none => exact hnull
      | some v =>
        have hv : v.wf = true := by
          obtain ⟨e, he, -, rfl⟩ := Mapping.mem_of_get hget
          exact (Value.wfEntries_of_mem (Value.wf_of_asMapping h hmap) he).2
        exact @index_deepMerge_null defaultMqtt v _ key (by decide) hv rfl hnull

/-- **Noninterference.**  Two documents that agree up to secrets, in environments that agree up to
the value of the variable named by `mqtt.password_env`, fail with the same error, or give
configurations that print and log the same; and then their redacted trees are equal exactly if the
documents have the same keys. -/
theorem secret_noninterference (lib : SerdeYaml) (platform : Platform) (yaml yaml' hostname : String)
    (env env' : Env) (r r' d d' : Document)
    (hparse : lib.parse yaml = .ok r) (hparse' : lib.parse yaml' = .ok r')
    (hmerge : lib.applyMerge r = some d) (hmerge' : lib.applyMerge r' = some d')
    (hagree : Agree true d.value d'.value) (hpw : PasswordsFit d.value d'.value)
    (hfile : ((d.value.index "mqtt").index "password_file").isNull = true)
    (henv : EnvAgree (passwordEnv (mergeDefaults defaults d.value).1) env env') :
    (∃ e, fromYaml lib platform yaml hostname env = .err e ∧
      fromYaml lib platform yaml' hostname env' = .err e) ∨
    ∃ c c', fromYaml lib platform yaml hostname env = .ok c ∧
      fromYaml lib platform yaml' hostname env' = .ok c' ∧ SamePublic platform c c' ∧
      (c.redacted = c'.redacted ↔ Agree false d.value d'.value) := by
  obtain ⟨hmerged, hwarnings⟩ := agree_mergeDefaults hagree d.wf d'.wf
  have hpw' : PasswordsFit (mergeDefaults defaults d.value).1 (mergeDefaults defaults d'.value).1 := by
    rw [PasswordsFit, mqttPassword, mqttPassword, mqtt_mergeDefaults d.wf rfl,
      mqtt_mergeDefaults d'.wf rfl]
    exact hpw
  have hfile' : (((mergeDefaults defaults d.value).1.index "mqtt").index "password_file").isNull =
      true := by
    rw [mqtt_mergeDefaults d.wf rfl]
    exact hfile
  -- both documents take the same way through the rest of `from_yaml`
  have halike : Outcome.Alike
      (fun c c' => c.data = (mergeDefaults defaults d.value).1 ∧
        c'.data = (mergeDefaults defaults d'.value).1 ∧ SamePublic platform c c')
      (fromDocument platform defaults d.value hostname env)
      (fromDocument platform defaults d'.value hostname env') := by
    rw [fromDocument_eq, fromDocument_eq, ← hwarnings]
    refine Outcome.Alike.bind (.of_eq (validate_of_agree hmerged hpw')) fun _ _ _ => ?_
    exact fromData_of_agree hmerged hpw' hfile' henv _ hostname
  have hkind : (r.value.isMapping || r.value.isNull) = (r'.value.isMapping || r'.value.isNull) := by
    rw [← lib.isMapping_applyMerge r d hmerge, ← lib.isNull_applyMerge r d hmerge,
      ← lib.isMapping_applyMerge r' d' hmerge', ← lib.isNull_applyMerge r' d' hmerge',
      hagree.isMapping, hagree.isNull]
  by_cases hk : (r.value.isMapping || r.value.isNull) = true
  · have hd : document lib yaml = .ok d := document_eq_ok.2 ⟨r, hparse, hk, hmerge⟩
    have hd' : document lib yaml' = .ok d' := document_eq_ok.2 ⟨r', hparse', hkind ▸ hk, hmerge'⟩
    have hnot : fromDocument platform defaults d.value hostname env ≠ .panicked :=
      fromDocument_ne_panicked d.value hostname env
    rw [fromYaml_eq, fromYaml_eq, hd, hd', Outcome.bind, Outcome.bind]
    generalize fromDocument platform defaults d.value hostname env = x at halike hnot ⊢
    generalize fromDocument platform defaults d'.value hostname env' = x' at halike ⊢
    cases halike with
    | err e => exact .inl ⟨e, rfl, rfl⟩
    | panicked => exact absurd rfl hnot
    | ok h =>
      obtain ⟨hc, hc', hsame⟩ := h
      refine .inr ⟨_, _, rfl, rfl, hsame, ?_⟩
      rw [redacted, redacted, hc, hc']
      exact redact_mergeDefaults_eq_iff hagree d.wf d'.wf
  · have herr : ∀ {yaml : String} {r : Document}, lib.parse yaml = .ok r →
        (r.value.isMapping || r.value.isNull) = false →
        document lib yaml = .err ⟨"expected a mapping at the top level"⟩ := by
      intro yaml r hr hk
      rw [document, hr, parsed, Outcome.ok_bind, hk]
      rfl
    have hk : (r.value.isMapping || r.value.isNull) = false := by simpa using hk
    rw [fromYaml_eq, fromYaml_eq, herr hparse hk, herr hparse' (hkind ▸ hk)]
    exact .inl ⟨_, rfl, rfl⟩

/-- A document with a password. -/
def withPassword (secret : String) : Document where
  value := .mapping [entry "mqtt" (.mapping [entry "password" (.string secret)])]
  wf := rfl

/-- A document in which a mapping with a password is a key. -/
def withSecretKey (secret : String) : Document where
  value := .mapping [(.mapping [entry "password" (.string secret)], int 1)]
  wf := rfl

/-- A parser that knows the two documents for each of two secrets. -/
def twoSecrets : SerdeYaml :=
  .knowing [("mqtt: \x7bpassword: a\x7d", withPassword "a"),
    ("mqtt: \x7bpassword: b\x7d", withPassword "b"),
    ("? \x7bpassword: a\x7d\n: 1", withSecretKey "a"),
    ("? \x7bpassword: b\x7d\n: 1", withSecretKey "b")]

theorem secret_noninterference_inline :
    ∃ c c', fromYaml twoSecrets .empty "mqtt: \x7bpassword: a\x7d" "host" (fun _ => none) = .ok c ∧
      fromYaml twoSecrets .empty "mqtt: \x7bpassword: b\x7d" "host" (fun _ => none) = .ok c' ∧
      c.redacted = c'.redacted := by
  have hagree : ∀ deep, Agree deep (withPassword "a").value (withPassword "b").value := fun _ =>
    .mapping (.cons (.same _) (.agree (.mapping (.cons (.same _) (.secret rfl rfl rfl) .nil))) .nil)
  rcases secret_noninterference twoSecrets .empty "mqtt: \x7bpassword: a\x7d"
      "mqtt: \x7bpassword: b\x7d" "host" (fun _ => none) (fun _ => none) (withPassword "a")
      (withPassword "b") (withPassword "a") (withPassword "b") rfl rfl rfl rfl (hagree true)
      (.inr ⟨by decide, by decide⟩) rfl (fun _ => .inl rfl) with ⟨e, he, -⟩ | ⟨c, c', hc, hc', -, hr⟩
  · have hok : (fromYaml twoSecrets .empty "mqtt: \x7bpassword: a\x7d" "host"
        (fun _ => none)).isOk = true := by
      rw [twoSecrets, fromYaml_knowing (by decide +kernel) rfl rfl]
      decide +kernel
    rw [he] at hok
    cases hok
  · exact ⟨c, c', hc, hc', hr.2 (hagree false)⟩

/-- A password inside a key shows in the redacted tree. -/
theorem secretKey_shows : ¬ ∀ (lib : SerdeYaml) (platform : Platform) (yaml yaml' hostname : String)
    (env env' : Env) (r r' d d' : Document), lib.parse yaml = .ok r → lib.parse yaml' = .ok r' →
    lib.applyMerge r = some d → lib.applyMerge r' = some d' → Agree true d.value d'.value →
    PasswordsFit d.value d'.value →
    ((d.value.index "mqtt").index "password_file").isNull = true →
    EnvAgree (passwordEnv (mergeDefaults defaults d.value).1) env env' →
    (∃ e, fromYaml lib platform yaml hostname env = .err e ∧
      fromYaml lib platform yaml' hostname env' = .err e) ∨
    ∃ c c', fromYaml lib platform yaml hostname env = .ok c ∧
      fromYaml lib platform yaml' hostname env' = .ok c' ∧ SamePublic platform c c' ∧
      c.redacted = c'.redacted := by
  intro hall
  have hagree : Agree true (withSecretKey "a").value (withSecretKey "b").value :=
    .mapping (.cons (.inside rfl (.mapping (.cons (.same _) (.secret rfl rfl rfl) .nil)))
      (.agree (.number _)) .nil)
  have hdoc : ∀ secret, secret = "a" ∨ secret = "b" →
      twoSecrets.parse ("? \x7bpassword: " ++ secret ++ "\x7d\n: 1") = .ok (withSecretKey secret) := by
    rintro _ (rfl | rfl) <;> exact SerdeYaml.parse_knowing (by decide +kernel) rfl
  rcases hall twoSecrets .empty _ _ "host" (fun _ => none) (fun _ => none) _ _ _ _
      (hdoc "a" (.inl rfl)) (hdoc "b" (.inr rfl)) rfl rfl hagree (.inl rfl) rfl
      (fun _ => .inl rfl) with ⟨e, he, -⟩ | ⟨c, c', hc, hc', -, hr⟩
  · have hok : (fromYaml twoSecrets .empty ("? \x7bpassword: " ++ "a" ++ "\x7d\n: 1") "host"
        (fun _ => none)).isOk = true := by
      rw [twoSecrets, fromYaml_knowing (by decide +kernel) rfl rfl]
      decide +kernel
    rw [he] at hok
    cases hok
  · have hdata : ∀ {secret : String} {c : Config}, secret = "a" ∨ secret = "b" →
        fromYaml twoSecrets .empty ("? \x7bpassword: " ++ secret ++ "\x7d\n: 1") "host"
          (fun _ => none) = .ok c →
        c.data = (mergeDefaults defaults (withSecretKey secret).value).1 := by
      intro secret c hsecret hc
      obtain ⟨-, d, hd, hdata⟩ := accepted_of_fromYaml hc
      rw [document, hdoc secret hsecret] at hd
      cases hd
      exact hdata
    rw [redacted, redacted, hdata (.inl rfl) hc, hdata (.inr rfl) hc',
      redact_mergeDefaults_eq_iff hagree (withSecretKey "a").wf (withSecretKey "b").wf] at hr
    cases hr with
    | mapping hr =>
      cases hr with
      | cons hk _ _ => exact absurd hk.eq (by simp [entry])

end Config
end SystemReport
