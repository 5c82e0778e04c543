import SystemReport.Config.Merge

/-!
# What `deep_merge` comes to

The merge path by path: where both trees have a mapping, the result has the keys of both, and
wherever else the overlay has a value, the result has that one (`Merged`).  The warnings are those
of the overlay's key paths that lead to no key of a mapping of the base (`isUnknown`).

A tree that holds an overlay already is not changed by it (`Absorbs`), and a merged tree holds the
overlay it was merged with.
-/

set_option autoImplicit false

open Yaml

namespace SystemReport
namespace Config

/-! ## The keys of merged entries -/

section Entries

variable {old entries : Mapping} (hold : old.Distinct) (hentries : entries.Distinct) (path : String)

include hold hentries

/-- The keys of the base, and the new keys of the overlay. -/
theorem map_fst_mergeEntries :
    (mergeEntries old entries path).1.map Prod.fst = old.map Prod.fst ++
      (entries.map Prod.fst).filter fun l => (Mapping.get old l).isNone := by
  rw [mergeEntries_eq path hold hentries, List.map_append, List.map_map, List.filter_map]
  congr 1
  exact List.map_congr_left fun e _ => mergedEntry_fst entries path e

theorem distinct_mergeEntries : Mapping.Distinct (mergeEntries old entries path).1 := by
  rw [mergeEntries_eq path hold hentries]
  refine Mapping.Distinct.append (hold.of_keys ?_) (hentries.filter _) ?_
  · rw [List.map_map]
    exact List.map_congr_left fun e _ => mergedEntry_fst entries path e
  · intro f hf e he
    obtain ⟨e', he', rfl⟩ := List.mem_map.1 he
    rw [mergedEntry_fst]
    exact Mapping.get_eq_none.1 (by simpa using (List.mem_filter.1 hf).2) e' he'

end Entries

/-! ## Along a path -/

/-- A path on both sides leads to the merge of what it leads to. -/
theorem valueAt_deepMerge_both : ∀ {p : List Value} {base overlay b o : Value} (path : String),
    (∀ k ∈ p, k.wf = true) → base.wf = true → overlay.wf = true → base.valueAt p = some b →
    overlay.valueAt p = some o →
    ∃ path', (deepMerge base overlay path).1.valueAt p = some (deepMerge b o path').1 := by
  intro p
  induction p with
  | nil =>
    intro base overlay b o path _ _ _ hb ho
    rw [Value.valueAt_nil] at hb ho
    cases hb
    cases ho
    exact ⟨path, Value.valueAt_nil _⟩
  | cons k p ih =>
    intro base overlay b o path hp hbase hoverlay hb ho
    rw [List.forall_mem_cons] at hp
    obtain ⟨old, b', hold, hget, hb⟩ := Value.valueAt_cons_eq_some.1 hb
    obtain ⟨entries, o', hentries, hget', ho⟩ := Value.valueAt_cons_eq_some.1 ho
    have holdwf := Value.wf_of_asMapping hbase hold
    have hewf := Value.wf_of_asMapping hoverlay hentries
    have hmerged := get_mergeEntries_both (Mapping.distinct_of_wf holdwf)
      (Mapping.distinct_of_wf hewf) path hp.1 hget hget'
    obtain ⟨path', h⟩ := ih (joinPath path (keyName k)) hp.2 (Value.wf_of_get holdwf hget)
      (Value.wf_of_get hewf hget') hb ho
    refine ⟨path', ?_⟩
    rw [deepMerge_of_mapping base overlay path hold hentries,
      Value.valueAt_cons (Value.asMapping_withMapping _ _), hmerged, Option.bind_some, h]

/-- Where the overlay has a value, and the two sides are not both mappings, the result is the
overlay's value. -/
theorem valueAt_deepMerge_overlay : ∀ {p : List Value} {base overlay o : Value} (path : String),
    (∀ k ∈ p, k.wf = true) → base.wf = true → overlay.wf = true → overlay.valueAt p = some o →
    (∀ b, base.valueAt p = some b → (b.isMapping && o.isMapping) = false) →
    (deepMerge base overlay path).1.valueAt p = some o := by
  intro p
  induction p with
  | nil =>
    intro base overlay o path _ _ _ ho hnot
    rw [Value.valueAt_nil] at ho ⊢
    cases ho
    rw [deepMerge_of_not_mapping (hnot base (Value.valueAt_nil _))]
  | cons k p ih =>
    intro base overlay o path hp hbase hoverlay ho hnot
    rw [List.forall_mem_cons] at hp
    have hwhole := ho
    obtain ⟨entries, o', hentries, hget', ho⟩ := Value.valueAt_cons_eq_some.1 ho
    cases hold : base.asMapping with
    | none =>
      rw [deepMerge_of_not_mapping (by rw [Value.isMapping_eq_false.2 hold, Bool.false_and]), hwhole]
    | some old =>
      have holdwf := Value.wf_of_asMapping hbase hold
      have hewf := Value.wf_of_asMapping hoverlay hentries
      have hdold := Mapping.distinct_of_wf holdwf
      have hdentries := Mapping.distinct_of_wf hewf
      rw [deepMerge_of_mapping base overlay path hold hentries,
        Value.valueAt_cons (Value.asMapping_withMapping _ _)]
      cases hget : Mapping.get old k with
      | none =>
        rw [get_mergeEntries_new hdold hdentries path hp.1 hget hget', Option.bind_some, ho]
      | some b' =>
        rw [get_mergeEntries_both hdold hdentries path hp.1 hget hget', Option.bind_some]
        refine ih _ hp.2 (Value.wf_of_get holdwf hget) (Value.wf_of_get hewf hget') ho ?_
        intro b hb
        exact hnot b (Value.valueAt_cons_eq_some.2 ⟨old, b', hold, hget, hb⟩)

/-- A key that the overlay's mapping does not have keeps the base's value. -/
theorem valueAt_deepMerge_base {p : List Value} {base overlay b o k : Value} {entries : Mapping}
    (path : String) (hp : ∀ k ∈ p, k.wf = true) (hbase : base.wf = true)
    (hoverlay : overlay.wf = true) (hb : base.valueAt (p ++ [k]) = some b)
    (ho : overlay.valueAt p = some o) (hentries : o.asMapping = some entries)
    (hmissing : Mapping.get entries k = none) :
    (deepMerge base overlay path).1.valueAt (p ++ [k]) = some b := by
  rw [Value.valueAt_append] at hb
  obtain ⟨b', hb', hb⟩ := Option.bind_eq_some_iff.1 hb
  obtain ⟨old, x, hold, hget, hx⟩ := Value.valueAt_cons_eq_some.1 hb
  rw [Value.valueAt_nil] at hx
  cases hx
  obtain ⟨path', hmerged⟩ := valueAt_deepMerge_both path hp hbase hoverlay hb' ho
  have hdold := Mapping.distinct_of_wf (Value.wf_of_asMapping (Value.wf_of_valueAt hbase hb') hold)
  have hdentries :=
    Mapping.distinct_of_wf (Value.wf_of_asMapping (Value.wf_of_valueAt hoverlay ho) hentries)
  rw [Value.valueAt_append, hmerged, Option.bind_some, deepMerge_of_mapping b' o path' hold hentries,
    Value.valueAt_cons (Value.asMapping_withMapping _ _),
    get_mergeEntries_old hdold hdentries path' hmissing, hget, Option.bind_some, Value.valueAt_nil]

/-! ## The warnings -/

/-- A path leads to no key of a mapping of the base. -/
def isUnknown (base : Value) (p : List Value) : Bool :=
  (base.valueAt p.dropLast).any Value.isMapping && (base.valueAt p).isNone

theorem isUnknown_of_not_mapping {base : Value} {p : List Value} (h : base.isMapping = false)
    (hp : p ≠ []) : isUnknown base p = false := by
  cases p with
  | nil => exact absurd rfl hp
  | cons k p =>
    cases p with
    | nil => simp [isUnknown, h]
    | cons l p =>
      rw [isUnknown, List.dropLast_cons_of_ne_nil (by simp), Value.valueAt_cons_of_not_mapping h]
      simp

theorem isUnknown_singleton {base : Value} {old : Mapping} (h : base.asMapping = some old)
    (k : Value) : isUnknown base [k] = (Mapping.get old k).isNone := by
  have hmapping : base.isMapping = true := Value.isMapping_iff.2 ⟨old, h⟩
  rw [isUnknown, Value.valueAt_cons h]
  cases Mapping.get old k <;> simp [hmapping]

theorem isUnknown_cons {base : Value} {old : Mapping} (h : base.asMapping = some old) (k : Value)
    {p : List Value} (hp : p ≠ []) :
    isUnknown base (k :: p) = (Mapping.get old k).any fun b => isUnknown b p := by
  rw [isUnknown, List.dropLast_cons_of_ne_nil hp, Value.valueAt_cons h, Value.valueAt_cons h]
  cases Mapping.get old k <;> simp [isUnknown]

/-- The warning about a path, below another one. -/
def pathWarning (path : String) (p : List Value) : String :=
  unknownKey ((p.map keyName).foldl joinPath path)

theorem entryWarnings_eq {base : Value} {old : Mapping} (hold : base.asMapping = some old)
    (path : String) (o : Value × Value)
    (ih : ∀ b, Mapping.get old o.1 = some b → ∀ path', (deepMerge b o.2 path').2 =
      (o.2.keyPaths.filter (isUnknown b)).map (pathWarning path')) :
    entryWarnings old path o =
      (([o.1] :: o.2.keyPaths.map (o.1 :: ·)).filter (isUnknown base)).map (pathWarning path) := by
  have hfilter : ∀ p ∈ o.2.keyPaths,
      isUnknown base (o.1 :: p) = (Mapping.get old o.1).any fun b => isUnknown b p :=
    fun p hp => isUnknown_cons hold o.1 (Value.ne_nil_of_mem_keyPaths hp)
  rw [entryWarnings, List.filter_cons, isUnknown_singleton hold, List.filter_map]
  cases hget : Mapping.get old o.1 with
  | none =>
    have hnil : o.2.keyPaths.filter (isUnknown base ∘ (o.1 :: ·)) = [] := by
      rw [List.filter_eq_nil_iff]
      intro p hp
      rw [Function.comp_apply, hfilter p hp, hget]
      simp
    rw [hnil]
    rfl
  | some b =>
    have hsame : o.2.keyPaths.filter (isUnknown base ∘ (o.1 :: ·)) =
        o.2.keyPaths.filter (isUnknown b) := by
      refine List.filter_congr ?_
      intro p hp
      rw [Function.comp_apply, hfilter p hp, hget, Option.any_some]
    rw [hsame]
    dsimp only
    rw [ih b hget, Option.isNone_some, if_neg (by simp), List.map_map]
    rfl

/-- A value that is taken as it is has no unknown keys. -/
theorem filter_isUnknown_eq_nil {base overlay : Value}
    (h : (base.isMapping && overlay.isMapping) = false) :
    overlay.keyPaths.filter (isUnknown base) = [] := by
  rw [Bool.and_eq_false_iff] at h
  rcases h with hbase | hoverlay
  · rw [List.filter_eq_nil_iff]
    intro p hp
    rw [isUnknown_of_not_mapping hbase (Value.ne_nil_of_mem_keyPaths hp)]
    simp
  · rw [Value.keyPaths_of_not_mapping hoverlay]
    rfl

/-- **The warnings of a merge**, in the order of the overlay's keys. -/
theorem warnings_deepMerge (overlay : Value) : ∀ (base : Value) (path : String), base.wf = true →
    overlay.wf = true → (deepMerge base overlay path).2 =
      (overlay.keyPaths.filter (isUnknown base)).map (pathWarning path) := by
  intro base
  induction base, overlay using deepMerge_induction with
  | taken base overlay hnot =>
    intro path _ _
    rw [deepMerge_of_not_mapping hnot, filter_isUnknown_eq_nil hnot]
    rfl
  | merged base overlay old entries hold hentries ih =>
    intro path hbase hoverlay
    have holdwf := Value.wf_of_asMapping hbase hold
    have hewf := Value.wf_of_asMapping hoverlay hentries
    rw [deepMerge_of_mapping base overlay path hold hentries,
      mergeEntries_eq path (Mapping.distinct_of_wf holdwf) (Mapping.distinct_of_wf hewf),
      Value.keyPaths_of_asMapping hentries, List.filter_flatMap, List.map_flatMap]
    refine List.flatMap_congr fun o ho => ?_
    refine entryWarnings_eq hold path o ?_
    intro b hb path'
    exact ih o ho b path' (Value.wf_of_get holdwf hb) (Value.wfEntries_of_mem hewf ho).2

/-! ## Merging again -/

/-- Merging a tree into another one changes nothing, and warns about nothing. -/
def Absorbs (v overlay : Value) : Prop := ∀ path, deepMerge v overlay path = (v, [])

/-- A mapping absorbs another one if its entries absorb the other's. -/
theorem absorbs_of_entries {v overlay : Value} {m entries : Mapping} (hm : v.asMapping = some m)
    (hentries : overlay.asMapping = some entries) (hmd : m.Distinct) (hed : entries.Distinct)
    (h : ∀ o ∈ entries, ∃ e ∈ m, o.1.beq e.1 = true ∧ Absorbs e.2 o.2) : Absorbs v overlay := by
  intro path
  have hget : ∀ o ∈ entries, ∃ e ∈ m, Mapping.get m o.1 = some e.2 ∧ Absorbs e.2 o.2 := by
    intro o ho
    obtain ⟨e, he, hoe, habsorbs⟩ := h o ho
    exact ⟨e, he, Mapping.get_of_mem hmd (hed.wf _ (List.mem_map_of_mem ho)) he hoe, habsorbs⟩
  have hmap : m.map (mergedEntry entries path) = m := by
    refine (List.map_congr_left ?_).trans (List.map_id m)
    intro e he
    by_cases hfound : ∃ o ∈ entries, o.1.beq e.1 = true
    · obtain ⟨o, ho, hoe⟩ := hfound
      obtain ⟨e', he', hoe', habsorbs⟩ := h o ho
      obtain rfl := hmd.eq_of_beq (hed.wf _ (List.mem_map_of_mem ho)) he he' hoe hoe'
      rw [mergedEntry_of_mem hed (hmd.wf _ (List.mem_map_of_mem he)) ho hoe, habsorbs]
      rfl
    · apply mergedEntry_of_none
      intro o ho
      exact Bool.eq_false_iff.2 fun hoe => hfound ⟨o, ho, hoe⟩
  have hnew : (entries.filter fun o => (Mapping.get m o.1).isNone) = [] := by
    rw [List.filter_eq_nil_iff]
    intro o ho
    obtain ⟨e, -, hsome, -⟩ := hget o ho
    simp [hsome]
  have hwarn : entries.flatMap (entryWarnings m path) = [] := by
    rw [List.flatMap_eq_nil_iff]
    intro o ho
    obtain ⟨e, -, hsome, habsorbs⟩ := hget o ho
    rw [entryWarnings, hsome]
    exact congrArg Prod.snd (habsorbs _)
  rw [deepMerge_of_mapping v overlay path hm hentries, mergeEntries_eq path hmd hed, hmap, hnew,
    hwarn, List.append_nil, Value.withMapping_of_asMapping hm]

/-- Every tree absorbs itself. -/
theorem absorbs_self (v : Value) (h : v.wf = true) : Absorbs v v := by
  induction v using Value.mapping_induction with
  | leaf v hnot =>
    intro path
    exact deepMerge_of_not_mapping (by rw [hnot, Bool.and_false])
  | node v es hes ih =>
    have hwf := Value.wf_of_asMapping h hes
    have hd := Mapping.distinct_of_wf hwf
    refine absorbs_of_entries hes hes hd hd ?_
    intro o ho
    exact ⟨o, ho, Value.beq_refl o.1, ih o ho (Value.wfEntries_of_mem hwf ho).2⟩

/-- **A merged tree absorbs the overlay.** -/
theorem absorbs_deepMerge (overlay : Value) : ∀ (base : Value) (path : String), base.wf = true →
    overlay.wf = true → Absorbs (deepMerge base overlay path).1 overlay := by
  intro base
  induction base, overlay using deepMerge_induction with
  | taken base overlay hnot =>
    intro path _ hoverlay
    rw [deepMerge_of_not_mapping hnot]
    exact absorbs_self overlay hoverlay
  | merged base overlay old entries hold hentries ih =>
    intro path hbase hoverlay
    have holdwf := Value.wf_of_asMapping hbase hold
    have hewf := Value.wf_of_asMapping hoverlay hentries
    have hdold := Mapping.distinct_of_wf holdwf
    have hdentries := Mapping.distinct_of_wf hewf
    rw [deepMerge_of_mapping base overlay path hold hentries]
    refine absorbs_of_entries (Value.asMapping_withMapping _ _) hentries
      (distinct_mergeEntries hdold hdentries path) hdentries ?_
    intro o ho
    have hvalue := (Value.wfEntries_of_mem hewf ho).2
    rw [mergeEntries_eq path hdold hdentries]
    cases hget : Mapping.get old o.1 with
    | none =>
      refine ⟨o, List.mem_append_right _ (List.mem_filter.2 ⟨ho, ?_⟩), Value.beq_refl o.1,
        absorbs_self o.2 hvalue⟩
      rw [hget]
      rfl
    | some b =>
      obtain ⟨e, he, hoe, rfl⟩ := Mapping.mem_of_get hget
      have hewf' : e.1.wf = true := hdold.wf _ (List.mem_map_of_mem he)
      refine ⟨mergedEntry entries path e, List.mem_append_left _ (List.mem_map_of_mem he), ?_, ?_⟩
      · rw [mergedEntry_fst]
        exact hoe
      · rw [mergedEntry_of_mem hdentries hewf' ho hoe]
        exact ih o ho e.2 _ (Value.wfEntries_of_mem holdwf he).2 hvalue

/-! ## Dotted paths -/

/-- The names of a path, joined by dots; empty names at the front leave no dot. -/
def dottedPath (names : List String) : String :=
  ".".intercalate (names.dropWhile fun name => name = "")

theorem foldl_joinPath {path : String} (h : path ≠ "") (names : List String) :
    names.foldl joinPath path = ".".intercalate (path :: names) := by
  induction names generalizing path with
  | nil => rw [List.foldl_nil, String.intercalate_singleton]
  | cons name names ih =>
    have hjoin : joinPath path name = path ++ "." ++ name := by simp [joinPath, h]
    have hne : path ++ "." ++ name ≠ "" := by simp
    rw [List.foldl_cons, hjoin, ih hne, String.intercalate_cons_append,
      String.intercalate_cons_cons]

/-- The path that is pushed on the way down. -/
theorem foldl_joinPath_empty (names : List String) :
    names.foldl joinPath "" = dottedPath names := by
  induction names with
  | nil => rfl
  | cons name names ih =>
    have hjoin : joinPath "" name = name := by simp [joinPath]
    rw [List.foldl_cons, hjoin, dottedPath, List.dropWhile_cons]
    by_cases hname : name = ""
    · subst hname
      rw [ih, dottedPath]
      simp
    · rw [foldl_joinPath hname]
      simp [hname]

/-! ## Exactness -/

/-- What a merge is to make of a base and an overlay. -/
structure Merged (base overlay merged : Value) : Prop where
  /-- Where both sides are mappings, the keys of the base and the new ones of the overlay. -/
  union : ∀ p b o old entries, (∀ k ∈ p, Value.wf k = true) → base.valueAt p = some b →
    overlay.valueAt p = some o → b.asMapping = some old → o.asMapping = some entries →
    ∃ new, merged.valueAt p = some (b.withMapping new) ∧
      new.map Prod.fst = old.map Prod.fst ++
        (entries.map Prod.fst).filter fun k => (Mapping.get old k).isNone
  /-- Wherever else the overlay has a value, that value. -/
  replaced : ∀ p o, (∀ k ∈ p, Value.wf k = true) → overlay.valueAt p = some o →
    (∀ b, base.valueAt p = some b → (b.isMapping && o.isMapping) = false) →
    merged.valueAt p = some o
  /-- Under a key that only the base has, the base's value. -/
  kept : ∀ p k b o entries, (∀ l ∈ p, Value.wf l = true) → base.valueAt (p ++ [k]) = some b →
    overlay.valueAt p = some o → o.asMapping = some entries → Mapping.get entries k = none →
    merged.valueAt (p ++ [k]) = some b

theorem merged_deepMerge {base overlay : Value} (hbase : base.wf = true)
    (hoverlay : overlay.wf = true) (path : String) :
    Merged base overlay (deepMerge base overlay path).1 := by
  constructor
  · intro p b o old entries hp hb ho hold hentries
    obtain ⟨path', hmerged⟩ := valueAt_deepMerge_both path hp hbase hoverlay hb ho
    have holdwf := Value.wf_of_asMapping (Value.wf_of_valueAt hbase hb) hold
    have hewf := Value.wf_of_asMapping (Value.wf_of_valueAt hoverlay ho) hentries
    rw [deepMerge_of_mapping b o path' hold hentries] at hmerged
    exact ⟨_, hmerged, map_fst_mergeEntries (Mapping.distinct_of_wf holdwf)
      (Mapping.distinct_of_wf hewf) path'⟩
  · intro p o hp ho hnot
    exact valueAt_deepMerge_overlay path hp hbase hoverlay ho hnot
  · intro p k b o entries hp hb ho hentries hmissing
    exact valueAt_deepMerge_base path hp hbase hoverlay hb ho hentries hmissing

/-- An empty mapping adds nothing to a mapping. -/
theorem deepMerge_empty {base empty : Value} (hbase : base.isMapping = true)
    (hempty : empty.asMapping = some []) (path : String) :
    deepMerge base empty path = (base, []) := by
  obtain ⟨old, hold⟩ := Value.isMapping_iff.1 hbase
  rw [deepMerge_of_mapping base empty path hold hempty, mergeEntries,
    Value.withMapping_of_asMapping hold]

/-- **The merge is exact.**  It is the base outside the overlay and the overlay elsewhere; it warns
once about each key of the overlay that is missing in a mapping of the base; merging again changes
nothing; and merging nothing changes nothing. -/
theorem deepMerge_exact (base overlay : Document) :
    Merged base.value overlay.value (deepMerge base.value overlay.value "").1 ∧
    (deepMerge base.value overlay.value "").2 =
      (overlay.value.keyPaths.filter (isUnknown base.value)).map
        (fun p => unknownKey (dottedPath (p.map keyName))) ∧
    deepMerge (deepMerge base.value overlay.value "").1 overlay.value "" =
      ((deepMerge base.value overlay.value "").1, []) ∧
    (∀ empty : Value, base.value.isMapping = true → empty.asMapping = some [] →
      deepMerge base.value empty "" = (base.value, [])) := by
  refine ⟨merged_deepMerge base.wf overlay.wf "", ?_,
    absorbs_deepMerge overlay.value base.value "" base.wf overlay.wf "", ?_⟩
  · rw [warnings_deepMerge overlay.value base.value "" base.wf overlay.wf]
    refine List.map_congr_left fun p _ => ?_
    rw [pathWarning, foldl_joinPath_empty]
  · intro empty hbase hempty
    exact deepMerge_empty hbase hempty ""

/-- A key with an empty name at the top leaves no trace in the path of a warning. -/
theorem emptyName_dropped : ¬ ∀ base overlay : Document,
    (deepMerge base.value overlay.value "").2 =
      (overlay.value.keyPaths.filter (isUnknown base.value)).map
        fun p => unknownKey (".".intercalate (p.map keyName)) := by
  intro h
  have hpath := h ⟨.mapping [(.string "", .mapping [])], rfl⟩
    ⟨.mapping [(.string "", .mapping [(.string "a", .null)])], rfl⟩
  revert hpath
  decide

end Config
end SystemReport
