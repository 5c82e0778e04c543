import Mathlib.Data.UInt
import SystemReport.Lib.F64

/-!
# YAML trees

The value type of a YAML library: scalars, sequences, mappings that keep the order of their
entries, and tags.

* The accessors (`Value.asStr`, `Value.asMapping`, …) and the index by a string look through tags.
* Keys are compared by `Value.beq`, which does not see the order of a mapping's entries.
* A tree that comes out of a parser has no key twice in a mapping (`Value.wf`); `Document` carries
  this as a field.
-/

set_option autoImplicit false

namespace Yaml

/-- A number: unsigned if it fits, negative, or a float. -/
inductive Number
  | posInt (n : UInt64)
  | negInt (i : ℤ)
  | float (f : F64)
deriving DecidableEq, Repr

/-- A YAML value.  A tag is kept without its leading `!`. -/
inductive Value
  | null
  | bool (b : Bool)
  | number (n : Number)
  | string (s : String)
  | sequence (vs : List Value)
  | mapping (es : List (Value × Value))
  | tagged (tag : String) (v : Value)

/-- The entries of a mapping, in order. -/
abbrev Mapping := List (Value × Value)

/-- A number as a double. -/
def Number.asF64 : Number → F64
  | .posInt n => .ofRat n.toNat
  | .negInt i => .ofRat i
  | .float f => f

namespace Value

/-! ## Accessors -/

/-- The value under all tags. -/
def untag : Value → Value
  | .tagged _ v => v.untag
  | v => v

def asStr (v : Value) : Option String :=
  match v.untag with
  | .string s => some s
  | _ => none

def asBool (v : Value) : Option Bool :=
  match v.untag with
  | .bool b => some b
  | _ => none

def asU64 (v : Value) : Option UInt64 :=
  match v.untag with
  | .number (.posInt n) => some n
  | _ => none

def asF64 (v : Value) : Option F64 :=
  match v.untag with
  | .number n => some n.asF64
  | _ => none

def asSequence (v : Value) : Option (List Value) :=
  match v.untag with
  | .sequence vs => some vs
  | _ => none

def asMapping (v : Value) : Option Mapping :=
  match v.untag with
  | .mapping es => some es
  | _ => none

def isNull (v : Value) : Bool :=
  match v.untag with
  | .null => true
  | _ => false

def isBool (v : Value) : Bool := v.asBool.isSome

def isMapping (v : Value) : Bool := v.asMapping.isSome

/-- Write through `as_mapping_mut`: the tags stay. -/
def withMapping : Value → Mapping → Value
  | .tagged tag v, es => .tagged tag (v.withMapping es)
  | _, es => .mapping es

/-! ## Comparing and looking up keys -/

mutual

/-- Equality of values, which does not see the order of a mapping's entries. -/
def beq : Value → Value → Bool
  | .null, .null => true
  | .bool a, .bool b => a == b
  | .number a, .number b => a == b
  | .string a, .string b => a == b
  | .sequence vs, .sequence ws => beqAll vs ws
  | .mapping es, .mapping fs => es.length == fs.length && beqEntries es fs
  | .tagged t v, .tagged u w => t == u && beq v w
  | _, _ => false

def beqAll : List Value → List Value → Bool
  | [], [] => true
  | v :: vs, w :: ws => beq v w && beqAll vs ws
  | _, _ => false

/-- Every entry of the first mapping is in the second one. -/
def beqEntries : List (Value × Value) → List (Value × Value) → Bool
  | [], _ => true
  | (k, v) :: es, fs => fs.any (fun f => beq k f.1 && beq v f.2) && beqEntries es fs

end

end Value

namespace Mapping

/-- The value stored under a key. -/
def get (m : Mapping) (key : Value) : Option Value := (m.find? fun e => key.beq e.1).map Prod.snd

/-- Replace the value stored under a key. -/
def set : Mapping → Value → Value → Mapping
  | [], _, _ => []
  | (k, old) :: m, key, new =>
    if key.beq k then (k, new) :: m else (k, old) :: set m key new

end Mapping

/-- `value[key]`: null if there is no such entry, and for what is not a mapping. -/
def Value.index (v : Value) (key : String) : Value :=
  match v.asMapping with
  | some m => (Mapping.get m (.string key)).getD .null
  | none => .null

/-! ## Documents -/

namespace Value

mutual

/-- No mapping in the value has a key twice. -/
def wf : Value → Bool
  | .sequence vs => wfAll vs
  | .mapping es => wfEntries es
  | .tagged _ v => v.wf
  | _ => true

def wfAll : List Value → Bool
  | [] => true
  | v :: vs => v.wf && wfAll vs

def wfEntries : List (Value × Value) → Bool
  | [] => true
  | (k, v) :: es => k.wf && v.wf && es.all (fun e => !e.1.beq k) && wfEntries es

end

end Value

/-- A tree as a parser builds it. -/
structure Document where
  value : Value
  wf : value.wf = true

/-! ## Lemmas -/

namespace Value

@[simp] theorem asMapping_mapping (es : Mapping) : (mapping es).asMapping = some es := rfl

@[simp] theorem isMapping_tagged (tag : String) (v : Value) :
    (tagged tag v).isMapping = v.isMapping := rfl

@[simp] theorem isMapping_mapping (es : Mapping) : (mapping es).isMapping = true := rfl

theorem isMapping_iff {v : Value} : v.isMapping = true ↔ ∃ es, v.asMapping = some es :=
  Option.isSome_iff_exists

theorem isMapping_eq_false {v : Value} : v.isMapping = false ↔ v.asMapping = none :=
  Option.isSome_eq_false_iff.trans Option.isNone_iff_eq_none

theorem asMapping_withMapping (es : Mapping) : ∀ v : Value, (v.withMapping es).asMapping = some es
  | .tagged _ v => asMapping_withMapping es v
  | .null | .bool _ | .number _ | .string _ | .sequence _ | .mapping _ => rfl

theorem withMapping_withMapping (es fs : Mapping) : ∀ v : Value,
    (v.withMapping es).withMapping fs = v.withMapping fs
  | .tagged _ v => congrArg _ (withMapping_withMapping es fs v)
  | .null | .bool _ | .number _ | .string _ | .sequence _ | .mapping _ => rfl

/-- Writing back what was read changes nothing. -/
theorem withMapping_of_asMapping : ∀ {v : Value} {es : Mapping}, v.asMapping = some es →
    v.withMapping es = v
  | .tagged _ v, _, h => congrArg _ (withMapping_of_asMapping (v := v) h)
  | .mapping es, _, h => by
    obtain rfl := Option.some.inj h
    rfl

/-- A string is equal only to itself. -/
theorem beq_string {v : Value} {s : String} : (string s).beq v = true ↔ v = string s := by
  cases v with
  | string t =>
    rw [beq, beq_iff_eq]
    exact ⟨fun h => h ▸ rfl, fun h => (Value.string.inj h).symm⟩
  | _ => exact ⟨nofun, nofun⟩

theorem beq_string' {v : Value} {s : String} : v.beq (string s) = true ↔ v = string s := by
  cases v with
  | string t =>
    rw [beq, beq_iff_eq]
    exact ⟨fun h => h ▸ rfl, fun h => Value.string.inj h⟩
  | _ => exact ⟨nofun, nofun⟩

theorem string_beq (s : String) (v : Value) : (string s).beq v = v.beq (string s) := by
  rw [Bool.eq_iff_iff, beq_string, beq_string']

/-- Equal keys are read as the same string. -/
theorem asStr_of_beq : ∀ {v w : Value}, v.beq w = true → v.asStr = w.asStr
  | .string a, w, h => by rw [beq_string.1 h]
  | .tagged t v, .tagged u w, h => by
    rw [beq, Bool.and_eq_true] at h
    exact asStr_of_beq (v := v) (w := w) h.2
  | .null, .null, _ | .bool _, .bool _, _ | .number _, .number _, _
  | .sequence _, .sequence _, _ | .mapping _, .mapping _, _ => rfl

theorem index_of_asMapping {v : Value} {m : Mapping} (h : v.asMapping = some m) (key : String) :
    v.index key = (Mapping.get m (.string key)).getD .null := by
  rw [index, h]

theorem wf_of_asMapping : ∀ {v : Value} {m : Mapping}, v.wf = true → v.asMapping = some m →
    wfEntries m = true
  | .tagged _ v, _, hwf, h => wf_of_asMapping (v := v) hwf h
  | .mapping es, _, hwf, h => by
    obtain rfl := Option.some.inj h
    exact hwf

theorem wfEntries_cons {k v : Value} {es : Mapping} (h : wfEntries ((k, v) :: es) = true) :
    k.wf = true ∧ v.wf = true ∧ (∀ e ∈ es, e.1.beq k = false) ∧ wfEntries es = true := by
  simpa [wfEntries, and_assoc] using h

theorem wfEntries_of_mem : ∀ {es : Mapping} {e : Value × Value}, wfEntries es = true → e ∈ es →
    e.1.wf = true ∧ e.2.wf = true
  | (k, v) :: es, e, h, he => by
    obtain ⟨hk, hv, -, hes⟩ := wfEntries_cons h
    rcases List.mem_cons.1 he with rfl | he
    · exact ⟨hk, hv⟩
    · exact wfEntries_of_mem hes he

/-! ## Equality of keys is an equivalence

Symmetry is where the keys have to be distinct: two mappings of the same length agree as soon as
every entry of the first is in the second, because no two of them can be matched with the same
one. -/

theorem beqEntries_iff : ∀ {es fs : Mapping}, beqEntries es fs = true ↔
    ∀ e ∈ es, ∃ f ∈ fs, e.1.beq f.1 = true ∧ e.2.beq f.2 = true
  | [], _ => ⟨fun _ _ h => absurd h List.not_mem_nil, fun _ => rfl⟩
  | (k, v) :: es, fs => by
    rw [beqEntries, Bool.and_eq_true, List.any_eq_true, List.forall_mem_cons, beqEntries_iff]
    simp only [Bool.and_eq_true]

mutual

theorem beq_refl : ∀ v : Value, v.beq v = true
  | .null => rfl
  | .bool _ | .number _ | .string _ => by
    rw [beq]
    exact beq_self_eq_true _
  | .sequence vs => beqAll_refl vs
  | .mapping es => by
    rw [beq, beq_self_eq_true, Bool.true_and, beqEntries_iff]
    intro e he
    exact ⟨e, he, beqEntries_refl es e he⟩
  | .tagged tag v => by
    rw [beq, beq_self_eq_true, Bool.true_and]
    exact beq_refl v

theorem beqAll_refl : ∀ vs : List Value, beqAll vs vs = true
  | [] => rfl
  | v :: vs => by
    rw [beqAll, Bool.and_eq_true]
    exact ⟨beq_refl v, beqAll_refl vs⟩

theorem beqEntries_refl : ∀ es : List (Value × Value), ∀ e ∈ es,
    e.1.beq e.1 = true ∧ e.2.beq e.2 = true
  | (k, v) :: es, e, he => by
    rcases List.mem_cons.1 he with rfl | he
    · exact ⟨beq_refl k, beq_refl v⟩
    · exact beqEntries_refl es e he

end

mutual

theorem beq_trans : ∀ {u v w : Value}, u.beq v = true → v.beq w = true → u.beq w = true
  | .null, .null, _, _, h => h
  | .bool a, .bool b, .bool c, h, h' => by
    rw [beq, beq_iff_eq] at h h' ⊢
    exact h.trans h'
  | .number a, .number b, .number c, h, h' => by
    rw [beq, beq_iff_eq] at h h' ⊢
    exact h.trans h'
  | .string a, v, w, h, h' => by
    obtain rfl := beq_string.1 h
    exact h'
  | .sequence us, .sequence vs, .sequence ws, h, h' => beqAll_trans h h'
  | .mapping es, .mapping fs, .mapping gs, h, h' => by
    rw [beq, Bool.and_eq_true, beq_iff_eq] at h h' ⊢
    exact ⟨h.1.trans h'.1, beqEntries_trans h.2 h'.2⟩
  | .tagged t u, .tagged t' v, .tagged t'' w, h, h' => by
    rw [beq, Bool.and_eq_true, beq_iff_eq] at h h' ⊢
    exact ⟨h.1.trans h'.1, beq_trans (u := u) h.2 h'.2⟩

theorem beqAll_trans : ∀ {us vs ws : List Value}, beqAll us vs = true → beqAll vs ws = true →
    beqAll us ws = true
  | [], [], _, _, h => h
  | u :: us, v :: vs, w :: ws, h, h' => by
    rw [beqAll, Bool.and_eq_true] at h h' ⊢
    exact ⟨beq_trans (u := u) h.1 h'.1, beqAll_trans h.2 h'.2⟩

theorem beqEntries_trans : ∀ {es fs gs : List (Value × Value)}, beqEntries es fs = true →
    beqEntries fs gs = true → beqEntries es gs = true
  | [], _, _, _, _ => rfl
  | (k, v) :: es, fs, gs, h, h' => by
    rw [beqEntries, Bool.and_eq_true] at h ⊢
    obtain ⟨f, hf, hkv⟩ := List.any_eq_true.1 h.1
    obtain ⟨g, hg, hk, hv⟩ := beqEntries_iff.1 h' f hf
    rw [Bool.and_eq_true] at hkv
    refine ⟨List.any_eq_true.2 ⟨g, hg, ?_⟩, beqEntries_trans h.2 h'⟩
    rw [Bool.and_eq_true]
    exact ⟨beq_trans (u := k) hkv.1 hk, beq_trans (u := v) hkv.2 hv⟩

end

mutual

theorem beq_symm : ∀ {v w : Value}, v.wf = true → w.wf = true → v.beq w = true → w.beq v = true
  | .null, .null, _, _, h => h
  | .bool a, .bool b, _, _, h => by
    rw [beq, beq_iff_eq] at h ⊢
    exact h.symm
  | .number a, .number b, _, _, h => by
    rw [beq, beq_iff_eq] at h ⊢
    exact h.symm
  | .string a, w, _, _, h => by
    obtain rfl := beq_string.1 h
    exact h
  | .sequence vs, .sequence ws, hv, hw, h => beqAll_symm hv hw h
  | .mapping es, .mapping fs, hv, hw, h => by
    rw [beq, Bool.and_eq_true, beq_iff_eq] at h ⊢
    exact ⟨h.1.symm, beqEntries_iff.2 (beqEntries_symm hv
      (fun f hf => wfEntries_of_mem hw hf) h.1 h.2)⟩
  | .tagged t v, .tagged u w, hv, hw, h => by
    rw [beq, Bool.and_eq_true, beq_iff_eq] at h ⊢
    exact ⟨h.1.symm, beq_symm (v := v) hv hw h.2⟩

theorem beqAll_symm : ∀ {vs ws : List Value}, wfAll vs = true → wfAll ws = true →
    beqAll vs ws = true → beqAll ws vs = true
  | [], [], _, _, h => h
  | v :: vs, w :: ws, hv, hw, h => by
    rw [wfAll, Bool.and_eq_true] at hv hw
    rw [beqAll, Bool.and_eq_true] at h ⊢
    exact ⟨beq_symm (v := v) hv.1 hw.1 h.1, beqAll_symm hv.2 hw.2 h.2⟩

theorem beqEntries_symm : ∀ {es fs : List (Value × Value)}, wfEntries es = true →
    (∀ f ∈ fs, f.1.wf = true ∧ f.2.wf = true) → es.length = fs.length →
    beqEntries es fs = true → ∀ f ∈ fs, ∃ e ∈ es, f.1.beq e.1 = true ∧ f.2.beq e.2 = true
  | [], [], _, _, _, _ => fun f hf => absurd hf List.not_mem_nil
  | (k, v) :: es, fs, hes, hfs, hlen, h => by
    obtain ⟨hk, hv, hnew, hes⟩ := wfEntries_cons hes
    rw [beqEntries, Bool.and_eq_true] at h
    obtain ⟨f, hf, hkv⟩ := List.any_eq_true.1 h.1
    rw [Bool.and_eq_true] at hkv
    have hfk : f.1.beq k = true := beq_symm (v := k) hk (hfs f hf).1 hkv.1
    have hfv : f.2.beq v = true := beq_symm (v := v) hv (hfs f hf).2 hkv.2
    obtain ⟨before, after, rfl⟩ := List.append_of_mem hf
    -- the other entries are matched with the rest
    have hrest : beqEntries es (before ++ after) = true := by
      refine beqEntries_iff.2 fun e he => ?_
      obtain ⟨f', hf', hek, hev⟩ := beqEntries_iff.1 h.2 e he
      refine ⟨f', ?_, hek, hev⟩
      rcases List.mem_append.1 hf' with hf' | hf'
      · exact List.mem_append_left _ hf'
      · rcases List.mem_cons.1 hf' with rfl | hf'
        · have := beq_trans hek hfk
          rw [hnew e he] at this
          cases this
        · exact List.mem_append_right _ hf'
    have hsub : ∀ g ∈ before ++ after, g ∈ before ++ f :: after := by
      intro g hg
      rcases List.mem_append.1 hg with hg | hg
      · exact List.mem_append_left _ hg
      · exact List.mem_append_right _ (List.mem_cons_of_mem _ hg)
    have ih := beqEntries_symm hes (fun g hg => hfs g (hsub g hg))
      (by simp only [List.length_cons, List.length_append] at hlen ⊢; omega) hrest
    intro g hg
    have hg : g = f ∨ g ∈ before ++ after := by
      rcases List.mem_append.1 hg with hg | hg
      · exact .inr (List.mem_append_left _ hg)
      · exact (List.mem_cons.1 hg).imp_right (List.mem_append_right _)
    rcases hg with rfl | hg
    · exact ⟨(k, v), List.mem_cons_self, hfk, hfv⟩
    · obtain ⟨e, he, hge⟩ := ih g hg
      exact ⟨e, List.mem_cons_of_mem _ he, hge⟩

end

end Value

/-! ## Mappings without a repeated key -/

namespace Mapping

/-- No key occurs twice. -/
structure Distinct (m : Mapping) : Prop where
  wf : ∀ k ∈ m.map Prod.fst, k.wf = true
  pairwise : (m.map Prod.fst).Pairwise fun k l => l.beq k = false

theorem distinct_of_wf : ∀ {m : Mapping}, Value.wfEntries m = true → m.Distinct
  | [], _ => ⟨fun _ h => absurd h List.not_mem_nil, .nil⟩
  | (k, v) :: m, h => by
    obtain ⟨hk, -, hnew, hm⟩ := Value.wfEntries_cons h
    have ih := distinct_of_wf hm
    refine ⟨List.forall_mem_cons.2 ⟨hk, ih.wf⟩, List.pairwise_cons.2 ⟨fun l hl => ?_, ih.pairwise⟩⟩
    obtain ⟨e, he, rfl⟩ := List.mem_map.1 hl
    exact hnew e he

theorem Distinct.tail {e : Value × Value} {m : Mapping} (h : Distinct (e :: m)) : m.Distinct :=
  ⟨fun k hk => h.wf k (List.mem_cons_of_mem _ hk), h.pairwise.of_cons⟩

theorem Distinct.head {e : Value × Value} {m : Mapping} (h : Distinct (e :: m)) :
    ∀ f ∈ m, f.1.beq e.1 = false :=
  fun _ hf => List.rel_of_pairwise_cons h.pairwise (List.mem_map_of_mem hf)

/-- A key that is not in the mapping can be added to it. -/
theorem Distinct.concat {m : Mapping} (h : m.Distinct) {k : Value} (hk : k.wf = true)
    (hnew : ∀ e ∈ m, k.beq e.1 = false) (v : Value) : Distinct (m ++ [(k, v)]) := by
  refine ⟨fun l hl => ?_, ?_⟩
  · rw [List.map_append, List.mem_append] at hl
    rcases hl with hl | hl
    · exact h.wf l hl
    · rwa [List.mem_singleton.1 hl]
  · rw [List.map_append, List.pairwise_append]
    refine ⟨h.pairwise, List.pairwise_singleton _ _, fun a ha b hb => ?_⟩
    obtain ⟨e, he, rfl⟩ := List.mem_map.1 ha
    rw [List.mem_singleton.1 hb]
    exact hnew e he

theorem Distinct.filter {m : Mapping} (h : m.Distinct) (p : Value × Value → Bool) :
    Distinct (m.filter p) := by
  have hsub : ((m.filter p).map Prod.fst).Sublist (m.map Prod.fst) := List.filter_sublist.map _
  exact ⟨fun k hk => h.wf k (hsub.subset hk), h.pairwise.sublist hsub⟩

/-- Entries with other keys can be added. -/
theorem Distinct.append {m n : Mapping} (h : m.Distinct) (hn : n.Distinct)
    (hnew : ∀ f ∈ n, ∀ e ∈ m, f.1.beq e.1 = false) : Distinct (m ++ n) := by
  constructor
  · intro k hk
    rw [List.map_append, List.mem_append] at hk
    exact hk.elim (h.wf k) (hn.wf k)
  · rw [List.map_append, List.pairwise_append]
    refine ⟨h.pairwise, hn.pairwise, ?_⟩
    intro a ha b hb
    obtain ⟨e, he, rfl⟩ := List.mem_map.1 ha
    obtain ⟨f, hf, rfl⟩ := List.mem_map.1 hb
    exact hnew f hf e he

/-- Being distinct is about the keys only. -/
theorem Distinct.of_keys {m n : Mapping} (h : m.Distinct) (hkeys : n.map Prod.fst = m.map Prod.fst) :
    n.Distinct :=
  ⟨hkeys ▸ h.wf, hkeys ▸ h.pairwise⟩

/-- A key that matches the first entry matches none of the others. -/
theorem Distinct.beq_tail {d : Value × Value} {m : Mapping} (h : Distinct (d :: m)) {k : Value}
    (hk : k.wf = true) (hkd : k.beq d.1 = true) {e : Value × Value} (he : e ∈ m) :
    k.beq e.1 = false := by
  by_contra hke
  have hek := Value.beq_symm hk (h.tail.wf e.1 (List.mem_map_of_mem he)) (by simpa using hke)
  have := (h.head e he).symm.trans (Value.beq_trans hek hkd)
  cases this

/-- Two entries whose keys match the same key are one entry. -/
theorem Distinct.eq_of_beq : ∀ {m : Mapping}, m.Distinct → ∀ {k : Value}, k.wf = true →
    ∀ {e f : Value × Value}, e ∈ m → f ∈ m → k.beq e.1 = true → k.beq f.1 = true → e = f
  | d :: m, h, k, hk, e, f, he, hf, hke, hkf => by
    rcases List.mem_cons.1 he with he | he
    · rcases List.mem_cons.1 hf with hf | hf
      · exact he.trans hf.symm
      · rw [h.beq_tail hk (he ▸ hke) hf] at hkf
        cases hkf
    · rcases List.mem_cons.1 hf with hf | hf
      · rw [h.beq_tail hk (hf ▸ hkf) he] at hke
        cases hke
      · exact eq_of_beq h.tail hk he hf hke hkf

/-- Two keys that match the same entry match each other. -/
theorem Distinct.eq_of_beq' {m : Mapping} (h : m.Distinct) {k : Value} (hk : k.wf = true)
    {e f : Value × Value} (he : e ∈ m) (hf : f ∈ m) (hek : e.1.beq k = true)
    (hfk : f.1.beq k = true) : e = f :=
  h.eq_of_beq hk he hf (Value.beq_symm (h.wf _ (List.mem_map_of_mem he)) hk hek)
    (Value.beq_symm (h.wf _ (List.mem_map_of_mem hf)) hk hfk)

theorem get_eq_none {m : Mapping} {k : Value} :
    get m k = none ↔ ∀ e ∈ m, k.beq e.1 = false := by
  simp [get]

theorem mem_of_get {m : Mapping} {k v : Value} (h : get m k = some v) :
    ∃ e ∈ m, k.beq e.1 = true ∧ e.2 = v := by
  obtain ⟨e, he, hv⟩ := Option.map_eq_some_iff.1 h
  exact ⟨e, List.mem_of_find?_eq_some he, by simpa using List.find?_some he, hv⟩

theorem get_congr {k l : Value} : ∀ {m : Mapping}, (∀ e ∈ m, k.beq e.1 = l.beq e.1) →
    get m k = get m l
  | [], _ => rfl
  | e :: m, h => by
    rw [List.forall_mem_cons] at h
    have ih := get_congr h.2
    rw [get, get] at ih ⊢
    rw [List.find?_cons, List.find?_cons, h.1]
    split
    · rfl
    · exact ih

theorem get_of_mem {m : Mapping} (h : m.Distinct) {k : Value} (hk : k.wf = true)
    {e : Value × Value} (he : e ∈ m) (hke : k.beq e.1 = true) : get m k = some e.2 := by
  cases hget : get m k with
  | none =>
    rw [get_eq_none.1 hget e he] at hke
    cases hke
  | some v =>
    obtain ⟨f, hf, hkf, rfl⟩ := mem_of_get hget
    rw [h.eq_of_beq hk he hf hke hkf]

theorem get_append (m n : Mapping) (k : Value) : get (m ++ n) k = (get m k).or (get n k) := by
  simp only [get, List.find?_append]
  cases List.find? (fun e => k.beq e.1) m <;> rfl

@[simp] theorem set_keys (k new : Value) : ∀ m : Mapping,
    (set m k new).map Prod.fst = m.map Prod.fst
  | [] => rfl
  | (l, old) :: m => by
    rw [set]
    split
    · rfl
    · rw [List.map_cons, set_keys k new m, List.map_cons]

theorem Distinct.set {m : Mapping} (h : m.Distinct) (k new : Value) : (set m k new).Distinct :=
  ⟨by rw [set_keys]; exact h.wf, by rw [set_keys]; exact h.pairwise⟩

/-- Without repeated keys, `set` writes to the one entry that matches. -/
theorem set_eq_map : ∀ {m : Mapping}, m.Distinct → ∀ {k : Value}, k.wf = true → ∀ new : Value,
    set m k new = m.map fun e => if k.beq e.1 then (e.1, new) else e
  | [], _, _, _, _ => rfl
  | (l, old) :: m, h, k, hk, new => by
    rw [Mapping.set, List.map_cons]
    split
    · rename_i hkl
      have hrest : (m.map fun e => if k.beq e.1 then (e.1, new) else e) = m.map id :=
        List.map_congr_left fun e he => if_neg (by simp [h.beq_tail hk hkl he])
      rw [hrest, List.map_id]
    · rw [set_eq_map h.tail hk new]

/-- Writing under one key does not change what is found under another. -/
theorem get_set_of_ne {k l : Value} (new : Value) : ∀ {m : Mapping},
    (∀ e ∈ m, k.beq e.1 = true → l.beq e.1 = false) → get (set m k new) l = get m l
  | [], _ => rfl
  | (j, old) :: m, h => by
    rw [List.forall_mem_cons] at h
    rw [set]
    split
    · rename_i hkj
      simp [get, h.1 hkj]
    · have ih := get_set_of_ne new h.2
      simp only [get, List.find?_cons] at ih ⊢
      split
      · rfl
      · exact ih

theorem get_concat_of_ne {m : Mapping} {k l v : Value} (h : l.beq k = false) :
    get (m ++ [(k, v)]) l = get m l := by
  rw [get_append, show get [(k, v)] l = none from get_eq_none.2 (by simpa using h), Option.or_none]

end Mapping
end Yaml
