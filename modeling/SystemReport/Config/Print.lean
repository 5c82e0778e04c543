import SystemReport.Lib.Json
import SystemReport.Config.Accepted
import SystemReport.Config.Redact

/-!
# Printing a configuration

`--print-config` writes the redacted tree as JSON and expects that this cannot fail.  Validation
does not look at unknown keys, so whether it can is decided by the keys of the document
(`printConfig_ok_iff`): a null key, for one, is accepted and then panics (`nullKey_panics`).
-/

set_option autoImplicit false

open Yaml

namespace SystemReport
namespace Config

/-- The tree that `--print-config` prints, in `run` of `src/main.rs`. -/
def printConfig (floatText : ℚ → String) (cfg : Config) : Outcome ConfigError Json :=
  .unwrap (cfg.redacted.toJson floatText)

mutual

/-- Every key of the tree has a JSON text, except in what `redact_passwords` overwrites. -/
def printable : Value → Bool
  | .sequence vs => printableAll vs
  | .mapping es => printableEntries es
  | .tagged _ v => printable v
  | _ => true

def printableAll : List Value → Bool
  | [] => true
  | v :: vs => printable v && printableAll vs

def printableEntries : List (Value × Value) → Bool
  | [] => true
  | (key, v) :: es => key.isJsonKey && (isSecret key v || printable v) && printableEntries es

end

mutual

/-- The redacted tree has a JSON text exactly if the tree is printable. -/
theorem isJson_redact : ∀ v : Value, (redactPasswords v).isJson = printable v
  | .null | .bool _ | .number _ | .string _ => rfl
  | .sequence vs => isJsonAll_redact vs
  | .mapping es => isJsonEntries_redact es
  | .tagged _ v => isJson_redact v

theorem isJsonAll_redact : ∀ vs : List Value, Value.isJsonAll (redactAll vs) = printableAll vs
  | [] => rfl
  | v :: vs => by
    rw [redactAll, Value.isJsonAll, printableAll, isJson_redact v, isJsonAll_redact vs]

theorem isJsonEntries_redact : ∀ es : List (Value × Value),
    Value.isJsonEntries (redactEntries es) = printableEntries es
  | [] => rfl
  | (key, v) :: es => by
    rw [redactEntries, Value.isJsonEntries, printableEntries, isJsonEntries_redact es]
    by_cases h : isSecret key v = true
    · rw [if_pos h, h, Bool.true_or]
      rfl
    · rw [if_neg h, isJson_redact v, Bool.eq_false_iff.2 h, Bool.false_or]

end

/-! ## Merging -/

/-- Merged into a tree with a JSON text, a tree has one exactly if it has one by itself. -/
def MergeJson (overlay : Value) : Prop :=
  ∀ (base : Value) (path : String), base.isJson = true → base.wf = true → overlay.wf = true →
    (deepMerge base overlay path).1.isJson = overlay.isJson

theorem isJsonEntries_merge {old es : Mapping} (path : String) (hold : old.Distinct)
    (hes : es.Distinct) (hjson : ∀ e ∈ old, e.1.isJsonKey = true ∧ e.2.isJson = true)
    (holdwf : ∀ e ∈ old, e.2.wf = true) (heswf : ∀ o ∈ es, o.2.wf = true)
    (ih : ∀ o ∈ es, MergeJson o.2) :
    Value.isJsonEntries (mergeEntries old es path).1 = Value.isJsonEntries es := by
  rw [mergeEntries_eq path hold hes, Bool.eq_iff_iff, Value.isJsonEntries_iff,
    Value.isJsonEntries_iff]
  dsimp only
  -- an entry of the base, once the overlay's entry for its key is merged into it
  have hmerge : ∀ e ∈ old, ∀ o ∈ es, o.1.beq e.1 = true →
      (((mergedEntry es path e).1.isJsonKey = true ∧ (mergedEntry es path e).2.isJson = true) ↔
        o.1.isJsonKey = true ∧ o.2.isJson = true) := by
    intro e he o ho hbeq
    rw [mergedEntry_of_mem hes (hold.wf e.1 (List.mem_map_of_mem he)) ho hbeq,
      ih o ho e.2 _ (hjson e he).2 (holdwf e he) (heswf o ho), Value.isJsonKey_of_beq hbeq]
  constructor
  · intro h o ho
    cases hget : Mapping.get old o.1 with
    | none =>
      refine h o (List.mem_append_right _ (List.mem_filter.2 ⟨ho, ?_⟩))
      rw [hget]
      rfl
    | some v =>
      obtain ⟨e, he, hbeq, -⟩ := Mapping.mem_of_get hget
      exact (hmerge e he o ho hbeq).1 (h _ (List.mem_append_left _ (List.mem_map_of_mem he)))
  · intro h e he
    rcases List.mem_append.1 he with he | he
    · obtain ⟨b, hb, rfl⟩ := List.mem_map.1 he
      by_cases hfound : ∃ o ∈ es, o.1.beq b.1 = true
      · obtain ⟨o, ho, hbeq⟩ := hfound
        exact (hmerge b hb o ho hbeq).2 (h o ho)
      · rw [mergedEntry_of_none fun o ho => Bool.eq_false_iff.2 fun hbeq => hfound ⟨o, ho, hbeq⟩]
        exact hjson b hb
    · exact h e (List.mem_of_mem_filter he)

theorem isJson_deepMerge (overlay : Value) : MergeJson overlay := by
  intro base
  induction base, overlay using deepMerge_induction with
  | taken base overlay hnot =>
    intro path _ _ _
    rw [deepMerge_of_not_mapping hnot]
  | merged base overlay old es hold hes ih =>
    intro path hjson hbase hoverlay
    have holdwf := Value.wf_of_asMapping hbase hold
    have heswf := Value.wf_of_asMapping hoverlay hes
    rw [Value.isJson_of_asMapping hold, Value.isJsonEntries_iff] at hjson
    rw [deepMerge_of_mapping base overlay path hold hes, Value.isJson_withMapping,
      Value.isJson_of_asMapping hes]
    exact isJsonEntries_merge path (Mapping.distinct_of_wf holdwf) (Mapping.distinct_of_wf heswf)
      hjson (fun e he => (Value.wfEntries_of_mem holdwf he).2)
      (fun o ho => (Value.wfEntries_of_mem heswf ho).2) ih

theorem isJson_defaults : defaults.isJson = true := by decide +kernel

/-- The merged tree has a JSON text exactly if the document has one. -/
theorem isJson_mergeDefaults {raw : Value} (h : raw.wf = true) :
    (mergeDefaults defaults raw).1.isJson = raw.isJson := by
  rw [mergeDefaults]
  split
  · rename_i hnull
    rw [Value.isJson_of_isNull hnull]
    exact isJson_defaults
  · exact isJson_deepMerge raw defaults "" isJson_defaults wf_defaults h

/-- The tree that is printed has a JSON text exactly if the document is printable. -/
theorem isJson_redacted {cfg : Config} {raw : Value} (h : raw.wf = true)
    (hdata : cfg.data = (mergeDefaults defaults raw).1) : cfg.redacted.isJson = printable raw := by
  have hredacted : cfg.redacted = (mergeDefaults defaults (redactPasswords raw)).1 := by
    rw [redacted, hdata, redact_mergeDefaults h]
  rw [hredacted, isJson_mergeDefaults (wf_redact h), isJson_redact]

/-- **When `--print-config` can print.**  For an accepted document, it does so without a panic
exactly if every key of the document, outside a value that is redacted, is a string, a boolean, an
integer or a finite float. -/
theorem printConfig_ok_iff (floatText : ℚ → String) (lib : SerdeYaml) (platform : Platform)
    (yaml hostname : String) (env : Env) (d : Document) (cfg : Config)
    (hd : document lib yaml = .ok d)
    (hcfg : fromYaml lib platform yaml hostname env = .ok cfg) :
    cfg.printConfig floatText ≠ .panicked ↔ printable d.value = true := by
  obtain ⟨-, d', hd', hdata⟩ := accepted_of_fromYaml hcfg
  rw [hd] at hd'
  cases hd'
  have hsome : (cfg.redacted.toJson floatText).isSome = printable d.value := by
    rw [Value.isSome_toJson, isJson_redacted d.wf hdata]
  rw [printConfig, ← hsome]
  cases cfg.redacted.toJson floatText with
  | none => exact ⟨fun h => absurd rfl h, nofun⟩
  | some j => exact ⟨fun _ => rfl, fun _ => nofun⟩

/-- Two documents that are accepted: an unknown key that is an integer, and one that is null. -/
def oddKeys : SerdeYaml :=
  .knowing [("1: 2", ⟨.mapping [(int 1, int 2)], rfl⟩), ("~: 2", ⟨.mapping [(.null, int 2)], rfl⟩)]

theorem printConfig_ok_iff_integerKey : ∃ cfg,
    fromYaml oddKeys .empty "1: 2" "host" (fun _ => none) = .ok cfg ∧
      cfg.printConfig (fun _ => "") ≠ .panicked := by
  have hdoc : document oddKeys "1: 2" = .ok ⟨.mapping [(int 1, int 2)], rfl⟩ :=
    document_eq_ok.2 ⟨_, SerdeYaml.parse_knowing (by decide +kernel) rfl, rfl, rfl⟩
  have hok : (fromYaml oddKeys .empty "1: 2" "host" (fun _ => none)).isOk = true := by
    rw [oddKeys, fromYaml_knowing (by decide +kernel) rfl rfl]
    decide +kernel
  obtain ⟨cfg, hcfg⟩ := Outcome.isOk_iff.1 hok
  exact ⟨cfg, hcfg, (printConfig_ok_iff _ _ _ _ _ _ _ cfg hdoc hcfg).2 rfl⟩

/-- A null key is accepted, but cannot be printed. -/
theorem nullKey_panics : ∃ cfg,
    fromYaml oddKeys .empty "~: 2" "host" (fun _ => none) = .ok cfg ∧
      cfg.printConfig (fun _ => "") = .panicked := by
  have hok : (fromYaml oddKeys .empty "~: 2" "host" (fun _ => none)).isOk = true := by
    rw [oddKeys, fromYaml_knowing (by decide +kernel) rfl rfl]
    decide +kernel
  obtain ⟨cfg, hcfg⟩ := Outcome.isOk_iff.1 hok
  obtain ⟨-, d, hd, hdata⟩ := accepted_of_fromYaml hcfg
  rw [oddKeys, document_eq_ok.2 ⟨_, SerdeYaml.parse_knowing (by decide +kernel) rfl, rfl, rfl⟩] at hd
  cases hd
  refine ⟨cfg, hcfg, ?_⟩
  have hnone : cfg.redacted.toJson (fun _ => "") = none := by
    rw [← Option.not_isSome_iff_eq_none, Value.isSome_toJson, isJson_redacted rfl hdata]
    decide
  rw [printConfig, hnone]
  rfl

end Config
end SystemReport
