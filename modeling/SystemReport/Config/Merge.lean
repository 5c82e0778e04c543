import SystemReport.Config.Template
import SystemReport.Lib.YamlPath

/-!
# Merging a configuration into the defaults

`deep_merge` in `src/config.rs`.  The recursion runs along the overlay; the warnings it pushes are
returned in the order in which they are pushed.

`mergeEntries_eq` says in one formula what the loop over the overlay's entries does, for an overlay
in which no key occurs twice: every entry of the base stays in its place, merged with the overlay's
value for its key if there is one, and the entries with a new key follow in the overlay's order.
-/

set_option autoImplicit false

open Yaml

namespace SystemReport
namespace Config

/-- The name of a key in a warning. -/
def keyName (key : Value) : String := key.asStr.getD "<non-string key>"

/-- The warning about a key that the defaults do not have. -/
def unknownKey (path : String) : String :=
  "unknown config key '" ++ path ++ "' (ignored, check for a typo)"

mutual

/-- `deep_merge`: what becomes of the base, and the warnings pushed on the way. -/
def deepMerge : (base overlay : Value) → (path : String) → Value × List String
  | base, .mapping entries, path =>
    match base.asMapping with
    | some old =>
      (base.withMapping (mergeEntries old entries path).1, (mergeEntries old entries path).2)
    | none => (.mapping entries, [])
  | base, .tagged tag v, path =>
    -- a tagged mapping is merged like the mapping under the tag
    if base.isMapping && v.isMapping then deepMerge base v path else (.tagged tag v, [])
  | _, overlay, _ => (overlay, [])

/-- The loop over the overlay's entries. -/
def mergeEntries : (base overlay : List (Value × Value)) → (path : String) →
    List (Value × Value) × List String
  | base, [], _ => (base, [])
  | base, (key, value) :: rest, path =>
    let where_ := joinPath path (keyName key)
    match Mapping.get base key with
    | some old =>
      let (new, warnings) := deepMerge old value where_
      let (merged, more) := mergeEntries (Mapping.set base key new) rest path
      (merged, warnings ++ more)
    | none =>
      let (merged, more) := mergeEntries (base ++ [(key, value)]) rest path
      (merged, unknownKey where_ :: more)

end

theorem deepMerge_of_mapping : ∀ (base overlay : Value) (path : String) {old entries : Mapping},
    base.asMapping = some old → overlay.asMapping = some entries →
    deepMerge base overlay path =
      (base.withMapping (mergeEntries old entries path).1, (mergeEntries old entries path).2)
  | base, .mapping es, path, old, entries, hb, ho => by
    obtain rfl := Option.some.inj ho
    rw [deepMerge, hb]
  | base, .tagged tag v, path, old, entries, hb, ho => by
    have hcond : (base.isMapping && v.isMapping) = true := by
      rw [Bool.and_eq_true]
      exact ⟨Value.isMapping_iff.2 ⟨old, hb⟩, Value.isMapping_iff.2 ⟨entries, ho⟩⟩
    rw [deepMerge, if_pos hcond]
    exact deepMerge_of_mapping base v path hb ho

theorem deepMerge_of_not_mapping {base overlay : Value} {path : String}
    (h : (base.isMapping && overlay.isMapping) = false) :
    deepMerge base overlay path = (overlay, []) := by
  cases overlay with
  | mapping es =>
    have hb : base.asMapping = none := by simpa [Value.isMapping] using h
    rw [deepMerge, hb]
  | tagged tag v =>
    rw [deepMerge, if_neg]
    simpa using h
  | null | bool b | number n | string s | sequence vs => rfl

/-- **Induction on a merge.**  The overlay's value is taken as it is, or both are mappings, and the
values of the overlay's entries may be merged into anything. -/
theorem deepMerge_induction {P : Value → Value → Prop}
    (taken : ∀ base overlay : Value, (base.isMapping && overlay.isMapping) = false → P base overlay)
    (merged : ∀ (base overlay : Value) (old entries : Mapping), base.asMapping = some old →
      overlay.asMapping = some entries → (∀ o ∈ entries, ∀ b, P b o.2) → P base overlay)
    (base overlay : Value) : P base overlay := by
  induction overlay using Value.mapping_induction generalizing base with
  | leaf overlay hnot => exact taken base overlay (by rw [hnot, Bool.and_false])
  | node overlay entries hentries ih =>
    cases hold : base.asMapping with
    | none => exact taken base overlay (by rw [Value.isMapping_eq_false.2 hold, Bool.false_and])
    | some old => exact merged base overlay old entries hold hentries ih

/-! ## The loop in one formula -/

/-- An entry of the base, merged with the overlay's value for its key. -/
def mergedEntry (overlay : Mapping) (path : String) (e : Value × Value) : Value × Value :=
  match overlay.find? fun o => o.1.beq e.1 with
  | some o => (e.1, (deepMerge e.2 o.2 (joinPath path (keyName o.1))).1)
  | none => e

/-- The warnings pushed for one entry of the overlay. -/
def entryWarnings (base : Mapping) (path : String) (o : Value × Value) : List String :=
  match Mapping.get base o.1 with
  | some old => (deepMerge old o.2 (joinPath path (keyName o.1))).2
  | none => [unknownKey (joinPath path (keyName o.1))]

theorem mergedEntry_of_none {overlay : Mapping} {path : String} {e : Value × Value}
    (h : ∀ o ∈ overlay, o.1.beq e.1 = false) : mergedEntry overlay path e = e := by
  rw [mergedEntry, List.find?_eq_none.2 fun o ho => by simp [h o ho]]

theorem mergedEntry_cons (o : Value × Value) (overlay : Mapping) (path : String)
    (e : Value × Value) :
    mergedEntry (o :: overlay) path e =
      if o.1.beq e.1 then (e.1, (deepMerge e.2 o.2 (joinPath path (keyName o.1))).1)
      else mergedEntry overlay path e := by
  rw [mergedEntry, List.find?_cons]
  cases h : o.1.beq e.1 with
  | true => rfl
  | false => rfl

/-- The overlay's other keys miss the entry that its first key matches. -/
theorem not_beq_of_head {base rest : Mapping} {k v : Value} (hb : base.Distinct)
    (ho : Mapping.Distinct ((k, v) :: rest)) {e o : Value × Value} (he : e ∈ base)
    (hoe : o ∈ rest) (hke : k.beq e.1 = true) : o.1.beq e.1 = false := by
  by_contra hoe'
  have hek := Value.beq_symm (ho.wf k List.mem_cons_self) (hb.wf e.1 (List.mem_map_of_mem he)) hke
  have := (ho.head o hoe).symm.trans (Value.beq_trans (by simpa using hoe') hek)
  cases this

theorem map_mergedEntry_set {base rest : Mapping} {k v old : Value} {path : String}
    (hb : base.Distinct) (ho : Mapping.Distinct ((k, v) :: rest))
    (hget : Mapping.get base k = some old) :
    (Mapping.set base k (deepMerge old v (joinPath path (keyName k))).1).map
        (mergedEntry rest path) = base.map (mergedEntry ((k, v) :: rest) path) := by
  have hk : k.wf = true := ho.wf k List.mem_cons_self
  rw [Mapping.set_eq_map hb hk, List.map_map]
  refine List.map_congr_left fun e he => ?_
  rw [Function.comp_apply, mergedEntry_cons]
  split
  · rename_i hke
    have hold : old = e.2 := Option.some.inj (hget.symm.trans (Mapping.get_of_mem hb hk he hke))
    have hmiss : ∀ o ∈ rest, o.1.beq e.1 = false := fun o hoe =>
      not_beq_of_head hb ho he hoe hke
    rw [hold]
    exact mergedEntry_of_none hmiss
  · rfl

theorem map_mergedEntry_concat {base rest : Mapping} {k v : Value} {path : String}
    (ho : Mapping.Distinct ((k, v) :: rest)) (hget : Mapping.get base k = none) :
    (base ++ [(k, v)]).map (mergedEntry rest path) =
      base.map (mergedEntry ((k, v) :: rest) path) ++ [(k, v)] := by
  rw [List.map_append, List.map_singleton, mergedEntry_of_none (e := (k, v)) ho.head]
  congr 1
  refine List.map_congr_left fun e he => ?_
  rw [mergedEntry_cons, if_neg]
  simp [Mapping.get_eq_none.1 hget e he]

/-- **The loop of `deep_merge`.**  The base's entries stay in their places, merged with what the
overlay has for them; the overlay's new entries follow; each entry of the overlay pushes its own
warnings. -/
theorem mergeEntries_eq (path : String) : ∀ {base overlay : Mapping}, base.Distinct →
    overlay.Distinct →
    mergeEntries base overlay path =
      (base.map (mergedEntry overlay path) ++ overlay.filter fun o => (Mapping.get base o.1).isNone,
        overlay.flatMap (entryWarnings base path))
  | base, [], _, _ => by
    have hmap : base.map (mergedEntry [] path) = base.map id :=
      List.map_congr_left fun e _ => mergedEntry_of_none fun o ho => absurd ho List.not_mem_nil
    rw [mergeEntries, hmap]
    simp
  | base, (k, v) :: rest, hb, ho => by
    have hk : k.wf = true := ho.wf k List.mem_cons_self
    -- the other entries find in the changed base what they find in the original one
    have hsame : ∀ {base' : Mapping}, (∀ o ∈ rest, Mapping.get base' o.1 = Mapping.get base o.1) →
        (rest.filter fun o => (Mapping.get base' o.1).isNone) =
            rest.filter (fun o => (Mapping.get base o.1).isNone) ∧
          rest.flatMap (entryWarnings base' path) = rest.flatMap (entryWarnings base path) := by
      intro base' h
      refine ⟨List.filter_congr fun o hoe => by rw [h o hoe], ?_⟩
      rw [List.flatMap_congr]
      intro o hoe
      rw [entryWarnings, entryWarnings, h o hoe]
    rw [mergeEntries, List.filter_cons, List.flatMap_cons]
    cases hget : Mapping.get base k with
    | some old =>
      obtain ⟨hfilter, hwarn⟩ := hsame fun o hoe => Mapping.get_set_of_ne _ fun e he hke =>
        not_beq_of_head hb ho he hoe hke
      dsimp only
      rw [mergeEntries_eq path (hb.set k _) ho.tail, map_mergedEntry_set hb ho hget, hfilter, hwarn,
        entryWarnings, hget]
      rfl
    | none =>
      obtain ⟨hfilter, hwarn⟩ := hsame fun o hoe => Mapping.get_concat_of_ne (ho.head o hoe)
      dsimp only
      rw [mergeEntries_eq path (hb.concat hk (Mapping.get_eq_none.1 hget) v) ho.tail,
        map_mergedEntry_concat ho hget, hfilter, hwarn, entryWarnings, hget, List.append_assoc]
      rfl

/-- An entry of the base is merged with the one entry of the overlay whose key it has. -/
theorem mergedEntry_of_mem {overlay : Mapping} (ho : overlay.Distinct) {path : String}
    {e o : Value × Value} (he : e.1.wf = true) (hmem : o ∈ overlay) (hoe : o.1.beq e.1 = true) :
    mergedEntry overlay path e =
      (e.1, (deepMerge e.2 o.2 (joinPath path (keyName o.1))).1) := by
  have hfind : (overlay.find? fun o => o.1.beq e.1).isSome :=
    List.find?_isSome.2 ⟨o, hmem, hoe⟩
  obtain ⟨o', ho'⟩ := Option.isSome_iff_exists.1 hfind
  have hbeq : o'.1.beq e.1 = true := by simpa using List.find?_some ho'
  rw [mergedEntry, ho', ho.eq_of_beq' he (List.mem_of_find?_eq_some ho') hmem hbeq hoe]

theorem mergedEntry_fst (m : Mapping) (path : String) (e : Value × Value) :
    (mergedEntry m path e).1 = e.1 := by
  rw [mergedEntry]
  split <;> rfl

theorem deepMerge_null (overlay : Value) (path : String) :
    deepMerge .null overlay path = (overlay, []) :=
  deepMerge_of_not_mapping rfl

/-! ## One key of the merged tree -/

theorem get_map_mergedEntry (old entries : Mapping) (path : String) (k : Value) :
    Mapping.get (old.map (mergedEntry entries path)) k =
      (old.find? fun e => k.beq e.1).map fun e => (mergedEntry entries path e).2 := by
  have hkey : (fun e => k.beq e.1) ∘ mergedEntry entries path =
      fun e : Value × Value => k.beq e.1 := by
    funext e
    rw [Function.comp_apply, mergedEntry_fst]
  rw [Mapping.get, List.find?_map, hkey, Option.map_map]
  rfl

section Entries

variable {old entries : Mapping} (hold : old.Distinct) (hentries : entries.Distinct) (path : String)
  {k : Value}

include hold hentries

/-- A key on both sides: the values are merged. -/
theorem get_mergeEntries_both (hk : k.wf = true) {b v : Value} (hb : Mapping.get old k = some b)
    (hv : Mapping.get entries k = some v) :
    Mapping.get (mergeEntries old entries path).1 k =
      some (deepMerge b v (joinPath path (keyName k))).1 := by
  rw [mergeEntries_eq path hold hentries, Mapping.get_append, get_map_mergedEntry]
  obtain ⟨e, he, rfl⟩ := Option.map_eq_some_iff.1 hb
  obtain ⟨o, ho, hko, rfl⟩ := Mapping.mem_of_get hv
  have hke : k.beq e.1 = true := by simpa using List.find?_some he
  have howf : o.1.wf = true := hentries.wf _ (List.mem_map_of_mem ho)
  have hewf : e.1.wf = true := hold.wf _ (List.mem_map_of_mem (List.mem_of_find?_eq_some he))
  have hoe : o.1.beq e.1 = true := Value.beq_trans (Value.beq_symm hk howf hko) hke
  rw [he, Option.map_some, mergedEntry_of_mem hentries hewf ho hoe, Option.some_or, keyName, keyName,
    Value.asStr_of_beq hko]

/-- A key of the overlay alone: its value is taken over. -/
theorem get_mergeEntries_new (hk : k.wf = true) {v : Value} (hb : Mapping.get old k = none)
    (hv : Mapping.get entries k = some v) :
    Mapping.get (mergeEntries old entries path).1 k = some v := by
  rw [mergeEntries_eq path hold hentries, Mapping.get_append, get_map_mergedEntry]
  obtain ⟨o, ho, hko, rfl⟩ := Mapping.mem_of_get hv
  have hnone : (old.find? fun e => k.beq e.1) = none := by simpa [Mapping.get] using hb
  have hnew : Mapping.get old o.1 = none := by
    rw [Mapping.get_eq_none]
    intro e he
    by_contra hoe
    have hke := Value.beq_trans hko (by simpa using hoe)
    rw [Mapping.get_eq_none.1 hb e he] at hke
    cases hke
  have hmem : o ∈ entries.filter fun o => (Mapping.get old o.1).isNone :=
    List.mem_filter.2 ⟨ho, by rw [hnew]; rfl⟩
  rw [hnone, Option.map_none, Option.none_or,
    Mapping.get_of_mem (hentries.filter _) hk hmem hko]

/-- A key that the overlay does not have: the base's value is kept. -/
theorem get_mergeEntries_old (hv : Mapping.get entries k = none) :
    Mapping.get (mergeEntries old entries path).1 k = Mapping.get old k := by
  rw [mergeEntries_eq path hold hentries, Mapping.get_append, get_map_mergedEntry]
  have hnone : Mapping.get (entries.filter fun o => (Mapping.get old o.1).isNone) k = none := by
    rw [Mapping.get_eq_none] at hv ⊢
    intro o ho
    exact hv o (List.mem_of_mem_filter ho)
  rw [hnone, Option.or_none, Mapping.get]
  cases hfind : old.find? fun e => k.beq e.1 with
  | none => rfl
  | some e =>
    have hke : k.beq e.1 = true := by simpa using List.find?_some hfind
    have hmiss : ∀ o ∈ entries, o.1.beq e.1 = false := by
      intro o ho
      by_contra hoe
      have hewf : e.1.wf = true :=
        hold.wf _ (List.mem_map_of_mem (List.mem_of_find?_eq_some hfind))
      have howf : o.1.wf = true := hentries.wf _ (List.mem_map_of_mem ho)
      have hko := Value.beq_trans hke (Value.beq_symm howf hewf (by simpa using hoe))
      rw [Mapping.get_eq_none.1 hv o ho] at hko
      cases hko
    rw [Option.map_some, Option.map_some, mergedEntry_of_none hmiss]

end Entries

/-- **A field of the merged tree** is the field of the base merged with that of the overlay, where
the overlay has it, and else that of the base. -/
theorem index_deepMerge {base overlay : Value} {old entries : Mapping} (path key : String)
    (hb : base.asMapping = some old) (ho : overlay.asMapping = some entries)
    (hold : old.Distinct) (hentries : entries.Distinct) :
    (deepMerge base overlay path).1.index key =
      match Mapping.get entries (.string key) with
      | some v => (deepMerge (base.index key) v (joinPath path key)).1
      | none => base.index key := by
  rw [deepMerge_of_mapping base overlay path hb ho,
    Value.index_of_asMapping (Value.asMapping_withMapping _ _), Value.index_of_asMapping hb]
  cases hget : Mapping.get entries (.string key) with
  | none => rw [get_mergeEntries_old hold hentries path hget]
  | some v =>
    cases hget' : Mapping.get old (.string key) with
    | none =>
      rw [get_mergeEntries_new hold hentries path rfl hget' hget]
      exact (congrArg Prod.fst (deepMerge_null v _)).symm
    | some b =>
      rw [get_mergeEntries_both hold hentries path rfl hget' hget]
      rfl

end Config
end SystemReport
