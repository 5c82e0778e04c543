import SystemReport.Lib.Yaml

/-!
# Paths in a YAML tree

A path is the list of the keys that lead to a value through mappings, with tags looked through.
`Value.valueAt` follows one, and `Value.keyPaths` lists all of a tree's in the order in which the
keys are written.  `Value.mapping_induction` is the induction that goes with them: a tree is a
mapping, possibly under tags, of smaller trees, or it is no mapping.
-/

set_option autoImplicit false

namespace Yaml
namespace Value

/-- The value that a path leads to. -/
def valueAt : Value → List Value → Option Value
  | v, [] => some v
  | v, k :: ks => (v.asMapping.bind fun m => Mapping.get m k).bind fun w => w.valueAt ks

mutual

/-- The paths of all keys of a tree. -/
def keyPaths : Value → List (List Value)
  | .mapping es => keyPathsOf es
  | .tagged _ v => v.keyPaths
  | _ => []

def keyPathsOf : List (Value × Value) → List (List Value)
  | [] => []
  | (k, v) :: es => [k] :: (v.keyPaths.map (k :: ·) ++ keyPathsOf es)

end

/-! ## Induction -/

mutual

theorem induction_asMapping {P : Value → Prop} (leaf : ∀ v : Value, v.isMapping = false → P v)
    (node : ∀ (v : Value) (es : Mapping), v.asMapping = some es → (∀ e ∈ es, P e.2) → P v) :
    ∀ (v : Value) (es : Mapping), v.asMapping = some es → ∀ e ∈ es, P e.2
  | .mapping es, _, h => by
    obtain rfl := Option.some.inj h
    exact induction_entries leaf node es
  | .tagged _ v, es, h => induction_asMapping leaf node v es h

theorem induction_entries {P : Value → Prop} (leaf : ∀ v : Value, v.isMapping = false → P v)
    (node : ∀ (v : Value) (es : Mapping), v.asMapping = some es → (∀ e ∈ es, P e.2) → P v) :
    ∀ (es : List (Value × Value)), ∀ e ∈ es, P e.2
  | (_, v) :: es, e, he => by
    rcases List.mem_cons.1 he with rfl | he
    · cases hv : Value.asMapping v with
      | none => exact leaf v (isMapping_eq_false.2 hv)
      | some m => exact node v m hv (induction_asMapping leaf node v m hv)
    · exact induction_entries leaf node es e he

end

/-- **Induction on a tree of mappings**, which does not see the tags. -/
theorem mapping_induction {P : Value → Prop} (leaf : ∀ v : Value, v.isMapping = false → P v)
    (node : ∀ (v : Value) (es : Mapping), v.asMapping = some es → (∀ e ∈ es, P e.2) → P v)
    (v : Value) : P v := by
  cases hv : v.asMapping with
  | none => exact leaf v (isMapping_eq_false.2 hv)
  | some m => exact node v m hv (induction_asMapping leaf node v m hv)

/-! ## Following a path -/

@[simp] theorem valueAt_nil (v : Value) : v.valueAt [] = some v := by rw [valueAt]

theorem valueAt_cons {v : Value} {m : Mapping} (h : v.asMapping = some m) (k : Value)
    (ks : List Value) : v.valueAt (k :: ks) = (Mapping.get m k).bind fun w => w.valueAt ks := by
  rw [valueAt, h, Option.bind_some]

theorem valueAt_cons_of_not_mapping {v : Value} (h : v.isMapping = false) (k : Value)
    (ks : List Value) : v.valueAt (k :: ks) = none := by
  rw [valueAt, isMapping_eq_false.1 h, Option.bind_none, Option.bind_none]

theorem valueAt_cons_eq_some {v w : Value} {k : Value} {ks : List Value} :
    v.valueAt (k :: ks) = some w ↔
      ∃ m x, v.asMapping = some m ∧ Mapping.get m k = some x ∧ x.valueAt ks = some w := by
  cases hv : v.asMapping with
  | none =>
    rw [valueAt_cons_of_not_mapping (isMapping_eq_false.2 hv)]
    simp
  | some m =>
    rw [valueAt_cons hv, Option.bind_eq_some_iff]
    simp

theorem valueAt_append (v : Value) (p q : List Value) :
    v.valueAt (p ++ q) = (v.valueAt p).bind fun w => w.valueAt q := by
  induction p generalizing v with
  | nil => simp
  | cons k p ih =>
    rw [List.cons_append, valueAt, valueAt]
    simp only [ih, Option.bind_assoc]

theorem wf_of_get {m : Mapping} {k v : Value} (hm : wfEntries m = true)
    (h : Mapping.get m k = some v) : v.wf = true := by
  obtain ⟨e, he, -, rfl⟩ := Mapping.mem_of_get h
  exact (wfEntries_of_mem hm he).2

theorem wf_of_valueAt {p : List Value} : ∀ {v w : Value}, v.wf = true → v.valueAt p = some w →
    w.wf = true := by
  induction p with
  | nil =>
    intro v w hv h
    rw [valueAt_nil] at h
    cases h
    exact hv
  | cons k p ih =>
    intro v w hv h
    obtain ⟨m, x, hm, hx, h⟩ := valueAt_cons_eq_some.1 h
    exact ih (wf_of_get (wf_of_asMapping hv hm) hx) h

/-! ## The paths of a tree -/

theorem keyPathsOf_eq (es : Mapping) :
    keyPathsOf es = es.flatMap fun e => [e.1] :: e.2.keyPaths.map (e.1 :: ·) := by
  induction es with
  | nil => rfl
  | cons e es ih =>
    obtain ⟨k, v⟩ := e
    rw [keyPathsOf, ih, List.flatMap_cons, List.cons_append]

theorem keyPaths_of_asMapping : ∀ {v : Value} {m : Mapping}, v.asMapping = some m →
    v.keyPaths = m.flatMap fun e => [e.1] :: e.2.keyPaths.map (e.1 :: ·)
  | .mapping es, _, h => by
    obtain rfl := Option.some.inj h
    rw [keyPaths, keyPathsOf_eq]
  | .tagged _ v, m, h => by
    rw [keyPaths]
    exact keyPaths_of_asMapping (v := v) h

theorem keyPaths_of_not_mapping : ∀ {v : Value}, v.isMapping = false → v.keyPaths = []
  | .tagged _ v, h => by
    rw [keyPaths]
    exact keyPaths_of_not_mapping (v := v) h
  | .null, _ | .bool _, _ | .number _, _ | .string _, _ | .sequence _, _ => by rw [keyPaths] <;> simp

/-- A path of a key is not empty. -/
theorem ne_nil_of_mem_keyPaths {v : Value} {p : List Value} (h : p ∈ v.keyPaths) : p ≠ [] := by
  cases hv : v.asMapping with
  | none =>
    rw [keyPaths_of_not_mapping (isMapping_eq_false.2 hv)] at h
    simp at h
  | some m =>
    rw [keyPaths_of_asMapping hv, List.mem_flatMap] at h
    obtain ⟨e, -, he⟩ := h
    rcases List.mem_cons.1 he with rfl | he
    · simp
    · obtain ⟨q, -, rfl⟩ := List.mem_map.1 he
      simp

end Value
end Yaml
