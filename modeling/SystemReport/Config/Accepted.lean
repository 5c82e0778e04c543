import SystemReport.Config.Load

/-!
# Accepted configurations

What holds of every configuration that `from_yaml` returns, gathered in `Accepted`: its tree has
passed `validate_shape`, its topics can be published to, and every meminfo topic of a configured
field resolves.  `from_yaml` itself never panics (`fromYaml_ne_panicked`).
-/

set_option autoImplicit false

open Yaml

namespace SystemReport
namespace Config

/-! ## No step panics on a tree of the right shape -/

variable {platform : Platform} {data : Value}

theorem fields_of_shaped (h : Shaped data) :
    ∃ vs, (((data.index "metrics").index "meminfo").index "fields").asSequence = some vs ∧
      vs ≠ [] ∧ ∀ v ∈ vs, ∃ s, v.asStr = some s ∧ Text.isBlank s = false :=
  h.fields ["metrics", "meminfo", "fields"] rfl

theorem resolveTopic_ne_panicked {hostname pre key : String}
    (h : ∃ s, (dig data key).asStr = some s) : resolveTopic data hostname pre key ≠ .panicked := by
  obtain ⟨s, hs⟩ := h
  rw [resolveTopic, hs, Outcome.unwrap_some, Outcome.ok_bind]
  refine Outcome.bind_ne_panicked (formatTemplate_ne_panicked _ _ _ _ _) fun _ _ => ?_
  exact Outcome.bind_ne_panicked (checkTopic_ne_panicked _ _) fun _ _ => nofun

theorem resolveTopics_ne_panicked (h : Shaped data) (hostname : String) :
    resolveTopics data hostname ≠ .panicked := by
  obtain ⟨pre, hpre, -⟩ := h.text ["topics", "prefix"] rfl (by decide)
  rw [resolveTopics, show ((data.index "topics").index "prefix").asStr = some pre from hpre,
    Outcome.unwrap_some, Outcome.ok_bind]
  refine Outcome.bind_ne_panicked (formatTemplate_ne_panicked _ _ _ _ _) fun _ _ => ?_
  refine Outcome.bind_ne_panicked (resolveTopic_ne_panicked ?_) fun _ _ => ?_
  · exact h.isText ["topics", "status"] rfl (by decide)
  refine Outcome.bind_ne_panicked (resolveTopic_ne_panicked ?_) fun _ _ => ?_
  · exact h.isText ["topics", "json"] rfl (by decide)
  refine Outcome.bind_ne_panicked (resolveTopic_ne_panicked ?_) fun _ _ => nofun
  exact h.isText ["metrics", "uptime_minutes", "topic"] rfl (by decide)

theorem resolve_ne_panicked (mqtt : Value) (env : Env) :
    resolve platform mqtt env ≠ .panicked := by
  rw [resolve]
  split
  · refine Outcome.bind_ne_panicked ?_ fun path _ => ?_
    · rw [passwordPath]
      split
      · exact Outcome.bind_ne_panicked (Outcome.okOr_ne_panicked _ _) fun _ _ => nofun
      · exact nofun
    · split
      · exact nofun
      · dsimp only
        split <;> exact nofun
  · split
    · exact nofun
    · split <;> exact nofun

theorem tlsWarnings_ne_panicked (h : Shaped data) (password : Option String) :
    tlsWarnings data password ≠ .panicked := by
  obtain ⟨tls, htls⟩ := h.bool ["mqtt", "tls", "enabled"] rfl
  obtain ⟨insecure, hinsecure⟩ := h.bool ["mqtt", "tls", "insecure"] rfl
  rw [tlsWarnings, show (((data.index "mqtt").index "tls").index "enabled").asBool = some tls from
    htls, show (((data.index "mqtt").index "tls").index "insecure").asBool = some insecure from
    hinsecure, Outcome.unwrap_some, Outcome.ok_bind]
  cases tls <;> exact nofun

theorem meminfoTopic_ne_panicked {cfg : Config} (h : Shaped cfg.data) (field : String) :
    cfg.meminfoTopic platform field ≠ .panicked := by
  obtain ⟨template, ht, -⟩ := h.text ["metrics", "meminfo", "topic"] rfl (by decide)
  rw [meminfoTopic, show (dig cfg.data "metrics.meminfo.topic").asStr = some template from ht,
    Outcome.unwrap_some, Outcome.ok_bind]
  refine Outcome.bind_ne_panicked (formatTemplate_ne_panicked _ _ _ _ _) fun _ _ => ?_
  exact Outcome.bind_ne_panicked (checkTopic_ne_panicked _ _) fun _ _ => nofun

theorem checkMeminfo_ne_panicked {cfg : Config} (h : Shaped cfg.data) :
    cfg.checkMeminfo platform ≠ .panicked := by
  obtain ⟨vs, hvs, -, htext⟩ := fields_of_shaped h
  rw [checkMeminfo, hvs, Outcome.unwrap_some, Outcome.ok_bind]
  refine Outcome.forEach_ne_panicked fun v hv => ?_
  obtain ⟨s, hs, -⟩ := htext v hv
  rw [hs, Outcome.unwrap_some, Outcome.ok_bind]
  exact Outcome.bind_ne_panicked (meminfoTopic_ne_panicked h s) fun _ _ => nofun

theorem fromData_ne_panicked (h : Shaped data) (warnings : List String) (hostname : String)
    (env : Env) : fromData platform data warnings hostname env ≠ .panicked := by
  refine Outcome.bind_ne_panicked (resolveTopics_ne_panicked h hostname) fun _ _ => ?_
  refine Outcome.bind_ne_panicked (resolve_ne_panicked _ _) fun _ _ => ?_
  refine Outcome.bind_ne_panicked (tlsWarnings_ne_panicked h _) fun _ _ => ?_
  exact Outcome.bind_ne_panicked (checkMeminfo_ne_panicked h) fun _ _ => nofun

theorem fromDocument_eq (platform : Platform) (raw : Value) (hostname : String) (env : Env) :
    fromDocument platform defaults raw hostname env =
      (validate (mergeDefaults defaults raw).1 defaults >>= fun _ =>
        fromData platform (mergeDefaults defaults raw).1 (mergeDefaults defaults raw).2 hostname
          env) := rfl

theorem fromDocument_ne_panicked (raw : Value) (hostname : String) (env : Env) :
    fromDocument platform defaults raw hostname env ≠ .panicked :=
  Outcome.bind_ne_panicked (validate_ne_panicked _) fun _ h =>
    fromData_ne_panicked (shaped_of_validate h) _ hostname env

/-! ## The steps of `from_yaml` -/

theorem document_ne_panicked (lib : SerdeYaml) (yaml : String) :
    document lib yaml ≠ .panicked := by
  refine Outcome.bind_ne_panicked ?_ fun _ _ => ?_
  · cases lib.parse yaml <;> exact nofun
  · exact Outcome.bind_ne_panicked (Outcome.ensure_ne_panicked _ _) fun _ _ =>
      Outcome.okOr_ne_panicked _ _

theorem document_eq_ok {lib : SerdeYaml} {yaml : String} {d : Document} :
    document lib yaml = .ok d ↔ ∃ r, lib.parse yaml = .ok r ∧
      (r.value.isMapping || r.value.isNull) = true ∧ lib.applyMerge r = some d := by
  constructor
  · intro h
    obtain ⟨r, hr, h⟩ := Outcome.bind_eq_ok.1 h
    obtain ⟨_, hkind, h⟩ := Outcome.bind_eq_ok.1 h
    refine ⟨r, ?_, Outcome.ensure_eq_ok.1 hkind, ?_⟩
    · cases hp : lib.parse yaml with
      | ok r' =>
        rw [hp] at hr
        cases hr
        rfl
      | error => rw [hp] at hr; cases hr
    · cases hm : lib.applyMerge r with
      | some d' =>
        rw [hm] at h
        cases h
        rfl
      | none => rw [hm] at h; cases h
  · rintro ⟨r, hparse, hkind, hmerge⟩
    refine Outcome.bind_eq_ok.2 ⟨r, by rw [hparse]; rfl, ?_⟩
    exact Outcome.bind_eq_ok.2 ⟨⟨⟩, Outcome.ensure_eq_ok.2 hkind, by rw [hmerge]; rfl⟩

theorem fromYaml_eq (lib : SerdeYaml) (platform : Platform) (yaml hostname : String) (env : Env) :
    fromYaml lib platform yaml hostname env = (document lib yaml).bind fun raw =>
      fromDocument platform defaults raw.value hostname env := by
  obtain ⟨d, hparse, hd⟩ := lib.parse_defaults
  rw [fromYaml, hparse, ← hd]
  rfl

theorem fromYaml_knowing {docs : List (String × Document)} {yaml : String} {d : Document}
    (hne : yaml ≠ defaultsYaml) (h : docs.lookup yaml = some d)
    (hkind : (d.value.isMapping || d.value.isNull) = true) (hostname : String) (env : Env) :
    fromYaml (.knowing docs) platform yaml hostname env =
      fromDocument platform defaults d.value hostname env := by
  rw [fromYaml_eq, document_eq_ok.2 ⟨d, SerdeYaml.parse_knowing hne h, hkind, rfl⟩]
  rfl

theorem fromYaml_eq_ok {lib : SerdeYaml} {yaml hostname : String} {env : Env} {cfg : Config} :
    fromYaml lib platform yaml hostname env = .ok cfg ↔ ∃ d, document lib yaml = .ok d ∧
      fromDocument platform defaults d.value hostname env = .ok cfg := by
  rw [fromYaml_eq]
  exact Outcome.bind_eq_ok

/-- `from_yaml` returns or fails, but never panics. -/
theorem fromYaml_ne_panicked (lib : SerdeYaml) (yaml hostname : String) (env : Env) :
    fromYaml lib platform yaml hostname env ≠ .panicked := by
  rw [fromYaml_eq]
  exact Outcome.bind_ne_panicked (document_ne_panicked lib yaml) fun d _ =>
    fromDocument_ne_panicked d.value hostname env

/-! ## What an accepted configuration is -/

/-- What `from_yaml` guarantees of the configuration that it returns. -/
structure Accepted (platform : Platform) (cfg : Config) : Prop where
  valid : validate cfg.data defaults = .ok ⟨⟩
  status : PublishTopic cfg.statusTopic
  json : PublishTopic cfg.jsonTopic
  uptime : PublishTopic cfg.uptimeTopic
  meminfo : cfg.checkMeminfo platform = .ok ⟨⟩

theorem Accepted.shaped {cfg : Config} (h : Accepted platform cfg) : Shaped cfg.data :=
  shaped_of_validate h.valid

theorem publishTopic_of_resolveTopic {hostname pre key topic : String}
    (h : resolveTopic data hostname pre key = .ok topic) : PublishTopic topic := by
  obtain ⟨_, -, h⟩ := Outcome.bind_eq_ok.1 h
  obtain ⟨_, -, h⟩ := Outcome.bind_eq_ok.1 h
  obtain ⟨_, hcheck, h⟩ := Outcome.bind_eq_ok.1 h
  cases h
  exact checkTopic_eq_ok.1 hcheck

theorem accepted_of_fromData {warnings : List String} {hostname : String} {env : Env}
    {cfg : Config} (hvalid : validate data defaults = .ok ⟨⟩)
    (h : fromData platform data warnings hostname env = .ok cfg) :
    cfg.data = data ∧ Accepted platform cfg := by
  obtain ⟨topics, htopics, h⟩ := Outcome.bind_eq_ok.1 h
  obtain ⟨_, -, h⟩ := Outcome.bind_eq_ok.1 h
  obtain ⟨_, -, h⟩ := Outcome.bind_eq_ok.1 h
  obtain ⟨_, hmeminfo, h⟩ := Outcome.bind_eq_ok.1 h
  cases h
  obtain ⟨_, -, htopics⟩ := Outcome.bind_eq_ok.1 htopics
  obtain ⟨_, -, htopics⟩ := Outcome.bind_eq_ok.1 htopics
  obtain ⟨_, hstatus, htopics⟩ := Outcome.bind_eq_ok.1 htopics
  obtain ⟨_, hjson, htopics⟩ := Outcome.bind_eq_ok.1 htopics
  obtain ⟨_, huptime, htopics⟩ := Outcome.bind_eq_ok.1 htopics
  cases htopics
  exact ⟨rfl, hvalid, publishTopic_of_resolveTopic hstatus, publishTopic_of_resolveTopic hjson,
    publishTopic_of_resolveTopic huptime, hmeminfo⟩

/-- **Every configuration that `from_yaml` returns is accepted**, and its tree is the document
merged into the defaults. -/
theorem accepted_of_fromYaml {lib : SerdeYaml} {yaml hostname : String} {env : Env} {cfg : Config}
    (h : fromYaml lib platform yaml hostname env = .ok cfg) :
    Accepted platform cfg ∧
      ∃ d, document lib yaml = .ok d ∧ cfg.data = (mergeDefaults defaults d.value).1 := by
  obtain ⟨d, hd, h⟩ := fromYaml_eq_ok.1 h
  obtain ⟨_, hvalid, h⟩ := Outcome.bind_eq_ok.1 h
  obtain ⟨hdata, haccepted⟩ := accepted_of_fromData hvalid h
  exact ⟨haccepted, d, hd, hdata⟩

/-- The built-in defaults are accepted. -/
theorem fromYaml_defaultsOnly : ∃ cfg,
    fromYaml .defaultsOnly .empty "" "host" (fun _ => none) = .ok cfg ∧ cfg.data = defaults := by
  have hdoc : document .defaultsOnly "" = .ok ⟨.null, rfl⟩ :=
    document_eq_ok.2 ⟨_, SerdeYaml.parse_knowing (by decide +kernel) rfl, rfl, rfl⟩
  have hok : (fromYaml .defaultsOnly .empty "" "host" fun _ => none).isOk = true := by
    rw [SerdeYaml.defaultsOnly, fromYaml_knowing (by decide +kernel) rfl rfl]
    decide +kernel
  obtain ⟨cfg, hcfg⟩ := Outcome.isOk_iff.1 hok
  obtain ⟨-, d, hd, hdata⟩ := accepted_of_fromYaml hcfg
  rw [hdoc] at hd
  cases hd
  exact ⟨cfg, hcfg, hdata⟩

end Config
end SystemReport
