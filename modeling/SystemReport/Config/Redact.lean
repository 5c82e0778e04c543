import SystemReport.Config.Load

/-!
# Redaction

What `redact_passwords` changes and what it leaves: the scalars, the shape and the keys of a tree
stay, so that every check and every accessor reads the same from a redacted tree, except under a
key `password`.

`redact_mergeDefaults` moves the redaction in front of the merge: merging a redacted document into
the defaults gives the redacted tree, with the same warnings.
-/

set_option autoImplicit false

open Yaml

namespace SystemReport
namespace Config

/-- What `redact_passwords` makes of the value under a key. -/
def redactValue (key value : Value) : Value :=
  if isSecret key value then .string redactedText else redactPasswords value

/-- What it makes of an entry. -/
def redactEntry (e : Value × Value) : Value × Value := (e.1, redactValue e.1 e.2)

theorem redactEntries_eq_map (es : Mapping) : redactEntries es = es.map redactEntry := by
  induction es with
  | nil => rfl
  | cons e es ih =>
    rw [redactEntries, ih]
    rfl

/-! ## What stays -/

/-- An accessor that looks through tags, and not into sequences and mappings, sees no difference. -/
theorem redact_congr {α : Type} {f : Value → α} (htag : ∀ tag v, f (.tagged tag v) = f v)
    (hseq : ∀ vs ws, f (.sequence vs) = f (.sequence ws))
    (hmap : ∀ es fs, f (.mapping es) = f (.mapping fs)) : ∀ v, f (redactPasswords v) = f v
  | .tagged _ v => by rw [redactPasswords, htag, htag, redact_congr htag hseq hmap v]
  | .sequence _ => hseq _ _
  | .mapping _ => hmap _ _
  | .null | .bool _ | .number _ | .string _ => rfl

@[simp] theorem isNull_redact : ∀ v : Value, (redactPasswords v).isNull = v.isNull :=
  redact_congr (fun _ _ => rfl) (fun _ _ => rfl) fun _ _ => rfl

@[simp] theorem isMapping_redact : ∀ v : Value, (redactPasswords v).isMapping = v.isMapping :=
  redact_congr (fun _ _ => rfl) (fun _ _ => rfl) fun _ _ => rfl

@[simp] theorem asMapping_redact : ∀ v : Value,
    (redactPasswords v).asMapping = v.asMapping.map (List.map redactEntry)
  | .tagged _ v => asMapping_redact v
  | .mapping es => congrArg some (redactEntries_eq_map es)
  | .null | .bool _ | .number _ | .string _ | .sequence _ => rfl

theorem redact_withMapping (es : Mapping) : ∀ v : Value,
    redactPasswords (v.withMapping es) = (redactPasswords v).withMapping (es.map redactEntry)
  | .tagged tag v => congrArg (Value.tagged tag) (redact_withMapping es v)
  | .null | .bool _ | .number _ | .string _ | .sequence _ | .mapping _ =>
    congrArg Value.mapping (redactEntries_eq_map es)

theorem map_redactEntry_fst (m : Mapping) : (m.map redactEntry).map Prod.fst = m.map Prod.fst := by
  rw [List.map_map]
  rfl

theorem distinct_redact {m : Mapping} (h : m.Distinct) : Mapping.Distinct (m.map redactEntry) :=
  ⟨by rw [map_redactEntry_fst]; exact h.wf, by rw [map_redactEntry_fst]; exact h.pairwise⟩

mutual

theorem wf_redact : ∀ {v : Value}, v.wf = true → (redactPasswords v).wf = true
  | .null, _ | .bool _, _ | .number _, _ | .string _, _ => rfl
  | .sequence _, h => wfAll_redact h
  | .mapping _, h => wfEntries_redact h
  | .tagged _ v, h => wf_redact (v := v) h

theorem wfAll_redact : ∀ {vs : List Value}, Value.wfAll vs = true →
    Value.wfAll (redactAll vs) = true
  | [], _ => rfl
  | v :: vs, h => by
    rw [Value.wfAll, Bool.and_eq_true] at h
    rw [redactAll, Value.wfAll, wf_redact h.1, wfAll_redact h.2, Bool.and_self]

theorem wfEntries_redact : ∀ {es : List (Value × Value)}, Value.wfEntries es = true →
    Value.wfEntries (redactEntries es) = true
  | [], _ => rfl
  | (k, v) :: es, h => by
    obtain ⟨hk, hv, hne, hes⟩ := Value.wfEntries_cons h
    have hvalue : (redactValue k v).wf = true := by
      rw [redactValue]
      split
      · rfl
      · exact wf_redact hv
    have hdistinct : ((redactEntries es).all fun e => !e.1.beq k) = true := by
      rw [redactEntries_eq_map, List.all_map, List.all_eq_true]
      intro e he
      exact congrArg not (hne e he)
    rw [redactEntries, Value.wfEntries, hk, hdistinct, wfEntries_redact hes, Bool.and_true,
      Bool.and_true, Bool.true_and]
    exact hvalue

end

theorem isSecret_of_beq {k l : Value} (h : k.beq l = true) (v : Value) :
    isSecret k v = isSecret l v := by
  rw [isSecret, isSecret, Value.asStr_of_beq h]

theorem redactValue_of_beq {k l : Value} (h : k.beq l = true) (v : Value) :
    redactValue k v = redactValue l v := by
  rw [redactValue, redactValue, isSecret_of_beq h]

theorem redactValue_of_ne {key value : Value} (h : key.asStr ≠ some "password") :
    redactValue key value = redactPasswords value := by
  rw [redactValue, if_neg]
  rw [isSecret, beq_false_of_ne h]
  exact Bool.false_ne_true

theorem get_redact (k : Value) : ∀ m : Mapping,
    Mapping.get (m.map redactEntry) k = (Mapping.get m k).map (redactValue k)
  | [] => rfl
  | e :: m => by
    have ih := get_redact k m
    rw [Mapping.get, Mapping.get] at ih ⊢
    rw [List.map_cons, List.find?_cons, List.find?_cons]
    cases h : k.beq e.1 with
    | true =>
      rw [show k.beq (redactEntry e).1 = true from h]
      exact congrArg some (redactValue_of_beq h e.2).symm
    | false =>
      rw [show k.beq (redactEntry e).1 = false from h]
      exact ih

/-! ## Merging -/

/-- A tree that redaction leaves as it is. -/
def Bare (v : Value) : Prop := redactPasswords v = v

theorem bare_defaults : Bare defaults := rfl

theorem Bare.entry {v : Value} (h : Bare v) {m : Mapping} (hm : v.asMapping = some m)
    {e : Value × Value} (he : e ∈ m) : redactEntry e = e := by
  have hmap : m.map redactEntry = m := by
    have := asMapping_redact v
    rw [h, hm] at this
    exact (Option.some.inj this).symm
  have hid : m.map redactEntry = m.map id := by rw [hmap, List.map_id]
  exact List.map_inj_left.1 hid e he

/-- In a bare tree, what is stored under `password` is no mapping. -/
theorem isMapping_of_secret {k v : Value} (h : redactEntry (k, v) = (k, v))
    (hk : k.asStr = some "password") : v.isMapping = false := by
  have hv : redactValue k v = v := congrArg Prod.snd h
  rw [redactValue] at hv
  split at hv
  · rw [← hv]
    rfl
  · rename_i hsecret
    have hnull : v.isNull = true := by simpa [isSecret, hk] using hsecret
    rw [Value.isNull] at hnull
    rw [Value.isMapping, Value.asMapping]
    split at hnull
    · rename_i hu
      rw [hu]
      rfl
    · cases hnull

/-- `redact_passwords` and the merge of one tree into another commute. -/
def MergeRedacts (overlay : Value) : Prop :=
  ∀ (base : Value) (path : String), Bare base → base.wf = true → overlay.wf = true →
    deepMerge base (redactPasswords overlay) path =
      (redactPasswords (deepMerge base overlay path).1, (deepMerge base overlay path).2)

theorem redactValue_merge {k l old v : Value} (path : String) (hkl : k.beq l = true)
    (hold : redactEntry (l, old) = (l, old)) (hwf : old.wf = true) (hv : v.wf = true)
    (ih : MergeRedacts v) :
    deepMerge old (redactValue k v) path =
      (redactValue l (deepMerge old v path).1, (deepMerge old v path).2) := by
  by_cases hk : k.asStr = some "password"
  · -- a value under `password` is replaced, not merged
    have hnot : old.isMapping = false :=
      isMapping_of_secret hold ((Value.asStr_of_beq hkl).symm.trans hk)
    have hreplace : ∀ w, deepMerge old w path = (w, []) := fun w =>
      deepMerge_of_not_mapping (by rw [hnot, Bool.false_and])
    rw [hreplace, hreplace, redactValue_of_beq hkl]
  · have hl : l.asStr ≠ some "password" := by rwa [← Value.asStr_of_beq hkl]
    have hbare : Bare old := by
      have := congrArg Prod.snd hold
      rwa [redactEntry, redactValue_of_ne hl] at this
    rw [redactValue_of_ne hk, redactValue_of_ne hl]
    exact ih old path hbare hwf hv

theorem mergedEntry_redact {m : Mapping} {path : String} {e : Value × Value}
    (he : redactEntry e = e) (hwf : e.2.wf = true) (hm : ∀ o ∈ m, o.2.wf = true)
    (ih : ∀ o ∈ m, MergeRedacts o.2) :
    mergedEntry (m.map redactEntry) path e = redactEntry (mergedEntry m path e) := by
  have hfind : (m.map redactEntry).find? (fun o => o.1.beq e.1) =
      (m.find? fun o => o.1.beq e.1).map redactEntry := List.find?_map ..
  rw [mergedEntry, mergedEntry, hfind]
  cases h : m.find? fun o => o.1.beq e.1 with
  | none => exact he.symm
  | some o =>
    have hmem := List.mem_of_find?_eq_some h
    have hbeq : o.1.beq e.1 = true := by simpa using List.find?_some h
    have := redactValue_merge (joinPath path (keyName o.1)) hbeq he hwf (hm o hmem) (ih o hmem)
    exact congrArg (fun r => (e.1, r)) (congrArg Prod.fst this)

theorem entryWarnings_redact {old : Mapping} {path : String} {o : Value × Value}
    (hold : ∀ e ∈ old, redactEntry e = e) (hwf : ∀ e ∈ old, e.2.wf = true) (ho : o.2.wf = true)
    (ih : MergeRedacts o.2) :
    entryWarnings old path (redactEntry o) = entryWarnings old path o := by
  rw [entryWarnings, entryWarnings, show (redactEntry o).1 = o.1 from rfl]
  cases h : Mapping.get old o.1 with
  | none => rfl
  | some w =>
    obtain ⟨e, he, hbeq, rfl⟩ := Mapping.mem_of_get h
    have := redactValue_merge (joinPath path (keyName o.1)) hbeq (hold e he) (hwf e he) ho ih
    exact congrArg (fun r => r.2) this

theorem redact_deepMerge (overlay : Value) : MergeRedacts overlay := by
  intro base
  induction base, overlay using deepMerge_induction with
  | taken base overlay hnot =>
    intro path _ _ _
    rw [deepMerge_of_not_mapping hnot, deepMerge_of_not_mapping (by rw [isMapping_redact, hnot])]
  | merged base overlay old es hold hes ih =>
    intro path hbare hbase hoverlay
    have holdwf := Value.wf_of_asMapping hbase hold
    have heswf := Value.wf_of_asMapping hoverlay hes
    have hwf : ∀ o ∈ es, o.2.wf = true := fun o ho => (Value.wfEntries_of_mem heswf ho).2
    have hsub : ∀ e ∈ old, e.2.wf = true := fun e he => (Value.wfEntries_of_mem holdwf he).2
    have hentry : ∀ e ∈ old, redactEntry e = e := fun e he => hbare.entry hold he
    have hd := Mapping.distinct_of_wf holdwf
    have hd' := Mapping.distinct_of_wf heswf
    have hes' : (redactPasswords overlay).asMapping = some (es.map redactEntry) := by
      rw [asMapping_redact, hes, Option.map_some]
    have hmap : old.map (mergedEntry (es.map redactEntry) path) =
        old.map (redactEntry ∘ mergedEntry es path) :=
      List.map_congr_left fun e he => mergedEntry_redact (hentry e he) (hsub e he) hwf ih
    have hwarn : (es.flatMap fun o => entryWarnings old path (redactEntry o)) =
        es.flatMap (entryWarnings old path) :=
      List.flatMap_congr fun o ho => entryWarnings_redact hentry hsub (hwf o ho) (ih o ho)
    rw [deepMerge_of_mapping base _ path hold hes', deepMerge_of_mapping base _ path hold hes,
      redact_withMapping, hbare, mergeEntries_eq path hd (distinct_redact hd'),
      mergeEntries_eq path hd hd']
    dsimp only
    rw [List.map_append, List.map_map, List.filter_map, List.flatMap_map, hmap, hwarn]
    rfl

/-- **Redacting the document redacts the merged tree**, and the merge warns about the same keys. -/
theorem redact_mergeDefaults {raw : Value} (h : raw.wf = true) :
    mergeDefaults defaults (redactPasswords raw) =
      (redactPasswords (mergeDefaults defaults raw).1, (mergeDefaults defaults raw).2) := by
  rw [mergeDefaults, mergeDefaults, isNull_redact]
  split
  · rw [bare_defaults]
  · exact redact_deepMerge raw defaults "" bare_defaults wf_defaults h

end Config
end SystemReport
