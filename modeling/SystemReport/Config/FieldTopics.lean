import SystemReport.Config.Accepted
import SystemReport.Config.Grammar

/-!
# A topic for each field

`validate` looks for the text `{name}` in the template of the meminfo topics, so that each field
gets its own topic.  The template language reads that text as a placeholder only where the brace
before it is not itself doubled: `{{name}}` passes the check, and stands for the text `{name}`.

`toList_of_meminfoTopic` says what the topic of a field is, and `fieldTopics_differ_iff` for which
templates the topics of two fields differ.
-/

set_option autoImplicit false

open Yaml

namespace SystemReport
namespace Config

variable {platform : Platform} {cfg : Config}

/-- The configured fields have topics. -/
theorem exists_meminfoTopic (h : Accepted platform cfg) {fields : List String}
    (hfields : cfg.meminfoFields = .ok fields) {field : String} (hfield : field ∈ fields) :
    ∃ topic, cfg.meminfoTopic platform field = .ok topic := by
  obtain ⟨vs, hvs, hfields⟩ := Outcome.bind_eq_ok.1 hfields
  obtain ⟨vs', hvs', hcheck⟩ := Outcome.bind_eq_ok.1 h.meminfo
  obtain rfl : vs = vs' := by rw [hvs] at hvs'; cases hvs'; rfl
  obtain ⟨v, hv, hstr⟩ := Outcome.mem_of_mapM hfields hfield
  obtain ⟨s, hs, htopic⟩ := Outcome.bind_eq_ok.1 (Outcome.forEach_eq_ok.1 hcheck v hv)
  obtain rfl : field = s := by rw [hstr] at hs; cases hs; rfl
  obtain ⟨topic, htopic, -⟩ := Outcome.bind_eq_ok.1 htopic
  exact ⟨topic, htopic⟩

/-- The topic of a field is the meaning of the template's pieces. -/
theorem toList_of_meminfoTopic {template : String} {ps : List Piece} {field topic : String}
    (htemplate : (dig cfg.data "metrics.meminfo.topic").asStr = some template)
    (hps : template.toList = spelling ps) (h : cfg.meminfoTopic platform field = .ok topic) :
    topic.toList = meaning cfg.hostname cfg.topicPrefix
      (some (meminfoTopicName platform.toLowercase field)) ps := by
  rw [meminfoTopic, htemplate, Outcome.unwrap_some, Outcome.ok_bind] at h
  obtain ⟨result, hresult, h⟩ := Outcome.bind_eq_ok.1 h
  obtain ⟨-, -, h⟩ := Outcome.bind_eq_ok.1 h
  obtain rfl : result = topic := by cases h; rfl
  obtain ⟨qs, -, hqs, hmeaning⟩ := formatTemplate_eq_ok.1 hresult
  rw [hmeaning, spelling_injective (hqs.symm.trans hps)]

/-- The template of an accepted configuration that has a topic for a field is a sequence of
pieces. -/
theorem exists_spelling {template field topic : String}
    (htemplate : (dig cfg.data "metrics.meminfo.topic").asStr = some template)
    (h : cfg.meminfoTopic platform field = .ok topic) :
    ∃ ps, template.toList = spelling ps := by
  rw [meminfoTopic, htemplate, Outcome.unwrap_some, Outcome.ok_bind] at h
  obtain ⟨result, hresult, -⟩ := Outcome.bind_eq_ok.1 h
  obtain ⟨ps, -, hps, -⟩ := formatTemplate_eq_ok.1 hresult
  exact ⟨ps, hps⟩

/-- `{name}` is one of the pieces of a template. -/
def HasName (template : String) : Prop :=
  ∃ ps, template.toList = spelling ps ∧ .name ∈ ps

/-- **When each field gets its own topic.**  The topics of two configured fields whose leaf names
differ are different exactly if the template has the placeholder `{name}`. -/
theorem fieldTopics_differ_iff (lib : SerdeYaml) (platform : Platform) (yaml hostname : String)
    (env : Env) (cfg : Config) (hcfg : fromYaml lib platform yaml hostname env = .ok cfg)
    (template : String)
    (htemplate : (dig cfg.data "metrics.meminfo.topic").asStr = some template)
    (fields : List String) (hfields : cfg.meminfoFields = .ok fields) (field field' : String)
    (hfield : field ∈ fields) (hfield' : field' ∈ fields)
    (hleaf : meminfoTopicName platform.toLowercase field ≠
      meminfoTopicName platform.toLowercase field') :
    (∃ topic topic', cfg.meminfoTopic platform field = .ok topic ∧
      cfg.meminfoTopic platform field' = .ok topic' ∧ topic ≠ topic') ↔ HasName template := by
  obtain ⟨haccepted, -⟩ := accepted_of_fromYaml hcfg
  obtain ⟨topic, htopic⟩ := exists_meminfoTopic haccepted hfields hfield
  obtain ⟨topic', htopic'⟩ := exists_meminfoTopic haccepted hfields hfield'
  obtain ⟨ps, hps⟩ := exists_spelling htemplate htopic
  have hmeaning := toList_of_meminfoTopic htemplate hps htopic
  have hmeaning' := toList_of_meminfoTopic htemplate hps htopic'
  constructor
  · rintro ⟨t, t', ht, ht', hne⟩
    refine ⟨ps, hps, ?_⟩
    by_contra hname
    obtain rfl : topic = t := by rw [htopic] at ht; cases ht; rfl
    obtain rfl : topic' = t' := by rw [htopic'] at ht'; cases ht'; rfl
    apply hne
    apply String.toList_inj.1
    rw [hmeaning, hmeaning']
    exact meaning_of_not_mem hname _ _
  · rintro ⟨qs, hqs, hname⟩
    obtain rfl := spelling_injective (hqs.symm.trans hps)
    refine ⟨topic, topic', htopic, htopic', ?_⟩
    intro heq
    rw [heq, hmeaning'] at hmeaning
    exact hleaf (name_of_meaning hname hmeaning.symm)

theorem fieldTopics_differ_iff_defaults : ∃ cfg topic topic',
    fromYaml .defaultsOnly .empty "" "host" (fun _ => none) = .ok cfg ∧
      cfg.meminfoTopic .empty "MemFree" = .ok topic ∧ cfg.meminfoTopic .empty "Slab" = .ok topic' ∧
      topic ≠ topic' := by
  obtain ⟨cfg, hcfg, hdata⟩ := fromYaml_defaultsOnly
  have hname : HasName "\x7bprefix\x7d/oper_state/\x7bname\x7d" :=
    ⟨.pre :: "/oper_state/".toList.map Piece.quote ++ [.name], by decide, by decide⟩
  obtain ⟨topic, topic', hdiffer⟩ := (fieldTopics_differ_iff _ _ _ _ _ cfg hcfg _
    (by rw [hdata]; rfl) _ (by rw [meminfoFields, hdata]; rfl) "MemFree" "Slab" (by decide)
    (by decide) (by decide)).2 hname
  exact ⟨cfg, topic, topic', hcfg, hdiffer⟩

/-- A document with a template for the meminfo topics. -/
def withTopic (template : String) : Document :=
  ⟨.mapping [entry "metrics" (.mapping [entry "meminfo" (.mapping [
    entry "topic" (.string template)])])], rfl⟩

/-- A parser that knows a document whose template has `{name}` inside doubled braces. -/
def doubledName : SerdeYaml :=
  .knowing [("metrics: \x7bmeminfo: \x7btopic: 'sys/\x7b\x7bname\x7d\x7d'\x7d\x7d",
    withTopic "sys/\x7b\x7bname\x7d\x7d")]

/-- Two fields are configured, and share the topic `sys/{name}`. -/
def sharesTopic (cfg : Config) : Outcome ConfigError PUnit := do
  let fields ← cfg.meminfoFields
  .ensure (decide ("MemFree" ∈ fields ∧ "Slab" ∈ fields ∧
    cfg.meminfoTopic .empty "MemFree" = .ok "sys/\x7bname\x7d" ∧
    cfg.meminfoTopic .empty "Slab" = .ok "sys/\x7bname\x7d")) (fail "" "")

/-- Inside doubled braces, `{name}` passes the check, and all fields share one topic. -/
theorem doubledName_shares : ∃ cfg fields,
    fromYaml doubledName .empty
      "metrics: \x7bmeminfo: \x7btopic: 'sys/\x7b\x7bname\x7d\x7d'\x7d\x7d" "host" (fun _ => none) =
        .ok cfg ∧
    cfg.meminfoFields = .ok fields ∧ "MemFree" ∈ fields ∧ "Slab" ∈ fields ∧
    meminfoTopicName Platform.empty.toLowercase "MemFree" ≠
      meminfoTopicName Platform.empty.toLowercase "Slab" ∧
    cfg.meminfoTopic .empty "MemFree" = .ok "sys/\x7bname\x7d" ∧
    cfg.meminfoTopic .empty "Slab" = .ok "sys/\x7bname\x7d" := by
  rw [doubledName, fromYaml_knowing (by decide +kernel) rfl rfl]
  have hok : ((fromDocument .empty defaults (withTopic "sys/\x7b\x7bname\x7d\x7d").value "host"
      fun _ => none) >>= sharesTopic).isOk = true := by
    decide +kernel
  obtain ⟨_, hshares⟩ := Outcome.isOk_iff.1 hok
  obtain ⟨cfg, hcfg, hshares⟩ := Outcome.bind_eq_ok.1 hshares
  obtain ⟨fields, hfields, hshares⟩ := Outcome.bind_eq_ok.1 hshares
  obtain ⟨hfree, hslab, htopics⟩ := of_decide_eq_true (Outcome.ensure_eq_ok.1 hshares)
  exact ⟨cfg, fields, hcfg, hfields, hfree, hslab, by decide, htopics⟩

end Config
end SystemReport
