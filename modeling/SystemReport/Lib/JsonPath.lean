import SystemReport.Lib.JsonText
import SystemReport.Lib.YamlPath

/-!
# A YAML tree, seen through its JSON text

A tree is written as JSON without loss, as far as its names go: where a path of names leads in the
tree, the same path leads in the JSON value (`at_toJson`).  A tag is a step of its own, since a
tagged value is written as an object with the tag as its only key.  A name is a text that no other
kind of key is written as; without this, a path could lead to the value of another key.
-/

set_option autoImplicit false

/-- A key that is no number, boolean or null. -/
def Json.IsName (key : String) : Prop := wordOf key.toList = none

/-- Where a path of keys leads. -/
def Json.at : Json → List String → Option Json
  | j, [] => some j
  | .object fields, key :: path => (fields.lookup key).bind fun j => j.at path
  | _, _ :: _ => none

namespace Yaml
namespace Value

open Json (IsName FloatText Numeric)

/-- Where a path of names leads, with the tags on the way spelled out. -/
def spelledAt : Value → List String → Option Value
  | v, [] => some v
  | .mapping es, key :: path => (Mapping.get es (.string key)).bind fun v => v.spelledAt path
  | .tagged tag v, key :: path => if key = "!" ++ tag then v.spelledAt path else none
  | _, _ :: _ => none

theorem spelledAt_append (v : Value) (p q : List String) :
    v.spelledAt (p ++ q) = (v.spelledAt p).bind fun w => w.spelledAt q := by
  induction p generalizing v with
  | nil => simp [spelledAt]
  | cons key p ih =>
    cases v with
    | mapping es =>
      rw [List.cons_append, spelledAt, spelledAt, Option.bind_assoc]
      exact congrArg _ (funext ih)
    | tagged tag v =>
      rw [List.cons_append, spelledAt, spelledAt]
      split
      · exact ih v
      · rfl
    | null | bool | number | string | sequence => rfl

variable {floatText : ℚ → String}

/-- Only a string is written as a name. -/
theorem keyText_of_isName (hfloat : ∀ q, FloatText (floatText q)) {key : String}
    (hname : IsName key) {k : Value} (h : k.keyText floatText = some key) : k = .string key := by
  have hnumber : ∀ {j : Json}, Json.numberOf key.toList ≠ some j := by
    intro j hj
    rw [IsName, Json.wordOf_of_numberOf hj] at hname
    cases hname
  have hint : ∀ i : ℤ, toString i ≠ key := by
    rintro i rfl
    exact hnumber (Json.numberOf_toString i)
  rw [keyText.eq_def] at h
  split at h
  · rw [Option.some.inj h]
  · rename_i b
    cases b <;> cases h <;> cases hname
  · rename_i n
    exact absurd (Option.some.inj h) (hint n.toNat)
  · rename_i i
    exact absurd (Option.some.inj h) (hint i)
  · rename_i q
    rw [← Option.some.inj h] at hnumber
    exact absurd (hfloat q).number hnumber
  · cases h

theorem lookup_toJsonEntries (hfloat : ∀ q, FloatText (floatText q)) {key : String}
    (hname : IsName key) : ∀ {es : Mapping} {fields : List (String × Json)},
    toJsonEntries floatText es = some fields →
      fields.lookup key = (Mapping.get es (.string key)).bind fun v => v.toJson floatText
  | [], _, h => by
    cases h
    rfl
  | (k, v) :: es, _, h => by
    obtain ⟨text, htext, h⟩ := Option.bind_eq_some_iff.1 h
    obtain ⟨j, hj, h⟩ := Option.bind_eq_some_iff.1 h
    obtain ⟨fields, hfields, h⟩ := Option.bind_eq_some_iff.1 h
    cases h
    have ih := lookup_toJsonEntries hfloat hname hfields
    rw [List.lookup_cons, Mapping.get, List.find?_cons]
    by_cases hk : k = .string key
    · subst hk
      cases htext
      rw [beq_self_eq_true, beq_string.2 rfl]
      exact hj.symm
    · have hne : key ≠ text := by
        rintro rfl
        exact hk (keyText_of_isName hfloat hname htext)
      rw [beq_false_of_ne hne, Bool.eq_false_iff.2 fun h => hk (beq_string.1 h)]
      exact ih

theorem exists_toJson_of_get {es : Mapping} {fields : List (String × Json)} {k v : Value}
    (h : toJsonEntries floatText es = some fields) (hget : Mapping.get es k = some v) :
    ∃ j, v.toJson floatText = some j := by
  have hjson : isJsonEntries es = true := by
    rw [← isSome_toJsonEntries floatText, h, Option.isSome_some]
  obtain ⟨e, he, -, rfl⟩ := Mapping.mem_of_get hget
  rw [← Option.isSome_iff_exists, isSome_toJson]
  exact (isJsonEntries_iff.1 hjson e he).2

/-- **A path of names leads to the same value in the tree and in its JSON.** -/
theorem at_toJson (hfloat : ∀ q, FloatText (floatText q)) {path : List String}
    (hnames : ∀ key ∈ path, IsName key) : ∀ {v : Value} {j : Json}, v.toJson floatText = some j →
      j.at path = (v.spelledAt path).bind fun w => w.toJson floatText := by
  induction path with
  | nil =>
    intro v j h
    rw [Json.at, spelledAt, Option.bind_some, h]
  | cons key path ih =>
    rw [List.forall_mem_cons] at hnames
    intro v j h
    cases v with
    | mapping es =>
      obtain ⟨fields, hfields, rfl⟩ := Option.map_eq_some_iff.1 h
      rw [Json.at, spelledAt, lookup_toJsonEntries hfloat hnames.1 hfields]
      cases hget : Mapping.get es (.string key) with
      | none => rfl
      | some w =>
        obtain ⟨k, hk⟩ := exists_toJson_of_get hfields hget
        rw [Option.bind_some, Option.bind_some, hk]
        exact ih hnames.2 hk
    | tagged tag v =>
      obtain ⟨j, hj, rfl⟩ := Option.map_eq_some_iff.1 h
      rw [Json.at, spelledAt, List.lookup_cons]
      by_cases hkey : key = "!" ++ tag
      · rw [if_pos hkey, hkey, beq_self_eq_true]
        exact ih hnames.2 hj
      · rw [if_neg hkey, beq_false_of_ne hkey]
        rfl
    | null => cases h; rfl
    | bool => cases h; rfl
    | string => cases h; rfl
    | number n =>
      cases h
      cases n with
      | float f => cases f <;> rfl
      | posInt | negInt => rfl
    | sequence vs =>
      obtain ⟨items, -, rfl⟩ := Option.map_eq_some_iff.1 h
      rfl

/-! ## The text of a tree -/

mutual

/-- The floats of a tree have the texts of floats. -/
theorem numeric_toJson (hfloat : ∀ q, FloatText (floatText q)) : ∀ {v : Value} {j : Json},
    v.toJson floatText = some j → Numeric j.floats
  | .null, _, h | .bool _, _, h | .string _, _, h => by
    cases h
    rintro t ⟨⟩
  | .number n, _, h => by
    cases h
    rw [Number.toJson.eq_def]
    split
    · rintro t ⟨⟩
    · rintro t ⟨⟩
    · intro t ht
      rw [List.mem_singleton.1 ht]
      exact hfloat _
    · rintro t ⟨⟩
  | .sequence vs, _, h => by
    obtain ⟨items, hitems, rfl⟩ := Option.map_eq_some_iff.1 h
    exact numeric_toJsonAll hfloat hitems
  | .mapping es, _, h => by
    obtain ⟨fields, hfields, rfl⟩ := Option.map_eq_some_iff.1 h
    exact numeric_toJsonEntries hfloat hfields
  | .tagged tag v, _, h => by
    obtain ⟨j, hj, rfl⟩ := Option.map_eq_some_iff.1 h
    rw [Json.floats, Json.floatsFields, Json.floatsFields, List.append_nil]
    exact numeric_toJson hfloat hj

theorem numeric_toJsonAll (hfloat : ∀ q, FloatText (floatText q)) : ∀ {vs : List Value}
    {items : List Json}, toJsonAll floatText vs = some items → Numeric (Json.floatsAll items)
  | [], _, h => by
    cases h
    rintro t ⟨⟩
  | v :: vs, _, h => by
    obtain ⟨j, hj, h⟩ := Option.bind_eq_some_iff.1 h
    obtain ⟨items, hitems, h⟩ := Option.bind_eq_some_iff.1 h
    cases h
    exact Json.numeric_append.2 ⟨numeric_toJson hfloat hj, numeric_toJsonAll hfloat hitems⟩

theorem numeric_toJsonEntries (hfloat : ∀ q, FloatText (floatText q)) :
    ∀ {es : List (Value × Value)} {fields : List (String × Json)},
      toJsonEntries floatText es = some fields → Numeric (Json.floatsFields fields)
  | [], _, h => by
    cases h
    rintro t ⟨⟩
  | (k, v) :: es, _, h => by
    obtain ⟨text, -, h⟩ := Option.bind_eq_some_iff.1 h
    obtain ⟨j, hj, h⟩ := Option.bind_eq_some_iff.1 h
    obtain ⟨fields, hfields, h⟩ := Option.bind_eq_some_iff.1 h
    cases h
    exact Json.numeric_append.2 ⟨numeric_toJson hfloat hj, numeric_toJsonEntries hfloat hfields⟩

end

end Value
end Yaml
