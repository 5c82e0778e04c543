import SystemReport.Lib.Yaml

/-!
# JSON

The value type of a JSON library that keeps the order of an object's fields, and what its serializer
makes of a YAML tree.  A JSON key is a text, so a key of the tree has to be
one, or a scalar with an obvious one (`Value.keyText`); every other key is an error, which is the
only way in which the serialization of a tree can fail.  How a value is written is up to the library
(`Json.Writer`).
-/

set_option autoImplicit false

/-- A JSON value.  A float is kept as its text; the fields of an object are in the order in which
they are written. -/
inductive Json
  | null
  | bool (b : Bool)
  | int (i : ℤ)
  | float (text : String)
  | string (s : String)
  | array (items : List Json)
  | object (fields : List (String × Json))

namespace Json

/-- What the library writes of a value: its compact text, and its text over several lines. -/
structure Writer where
  toString : Json → String
  toStringPretty : Json → String

/-- Insert a field: in place of the one with its key, or else at the end. -/
def insertField : List (String × Json) → String → Json → List (String × Json)
  | [], key, j => [(key, j)]
  | (k, old) :: fields, key, j =>
    if k = key then (k, j) :: fields else (k, old) :: insertField fields key j

/-! ## Objects

An object has one field for each key; what is inserted last under a key is what it holds. -/

/-- Insert some fields, one after the other. -/
def insertAll (fields more : List (String × Json)) : List (String × Json) :=
  more.foldl (fun fields e => insertField fields e.1 e.2) fields

@[simp] theorem insertAll_nil (fields : List (String × Json)) : insertAll fields [] = fields := rfl

@[simp] theorem insertAll_cons (fields more : List (String × Json)) (e : String × Json) :
    insertAll fields (e :: more) = insertAll (insertField fields e.1 e.2) more := rfl

theorem insertAll_append (fields more rest : List (String × Json)) :
    insertAll fields (more ++ rest) = insertAll (insertAll fields more) rest :=
  List.foldl_append

theorem insertField_of_notMem {fields : List (String × Json)} {key : String} (j : Json)
    (h : key ∉ fields.map Prod.fst) : insertField fields key j = fields ++ [(key, j)] := by
  induction fields with
  | nil => rfl
  | cons e fields ih =>
    rw [List.map_cons, List.mem_cons, not_or] at h
    rw [insertField, if_neg (Ne.symm h.1), ih h.2, List.cons_append]

theorem map_fst_insertField (fields : List (String × Json)) (key : String) (j : Json) :
    (insertField fields key j).map Prod.fst =
      if key ∈ fields.map Prod.fst then fields.map Prod.fst else fields.map Prod.fst ++ [key] := by
  induction fields with
  | nil => simp [insertField]
  | cons e fields ih =>
    rw [insertField]
    by_cases h : e.1 = key
    · simp [h]
    · rw [if_neg h, List.map_cons, ih]
      by_cases hmem : key ∈ fields.map Prod.fst
      · rw [if_pos hmem, if_pos (by simp [hmem])]
        rfl
      · rw [if_neg hmem, if_neg (by simpa [Ne.symm h] using hmem)]
        rfl

/-- The keys of an object stay unique. -/
theorem nodup_insertAll {more : List (String × Json)} : ∀ {fields : List (String × Json)},
    (fields.map Prod.fst).Nodup → ((insertAll fields more).map Prod.fst).Nodup := by
  induction more with
  | nil => exact fun h => h
  | cons e more ih =>
    intro fields h
    apply ih
    rw [map_fst_insertField]
    split_ifs with hmem
    · exact h
    · refine List.nodup_append.2 ⟨h, by simp, ?_⟩
      intro a ha b hb heq
      rw [List.mem_singleton.1 hb] at heq
      exact hmem (heq ▸ ha)

/-- Fields with different keys are all kept, in their order. -/
theorem insertAll_eq_append {more : List (String × Json)} : ∀ {fields : List (String × Json)},
    ((fields ++ more).map Prod.fst).Nodup → insertAll fields more = fields ++ more := by
  induction more with
  | nil => simp
  | cons e more ih =>
    intro fields h
    have hfresh : e.1 ∉ fields.map Prod.fst := by
      rw [List.map_append, List.map_cons, List.nodup_append] at h
      intro hmem
      exact h.2.2 _ hmem _ List.mem_cons_self rfl
    rw [insertAll_cons, insertField_of_notMem _ hfresh, ih (by simpa using h)]
    simp

theorem lookup_insertField (fields : List (String × Json)) (key k : String) (j : Json) :
    (insertField fields key j).lookup k = if k = key then some j else fields.lookup k := by
  induction fields with
  | nil =>
    rw [insertField, List.lookup_cons]
    by_cases hk : k = key
    · simp [hk]
    · simp [hk, beq_false_of_ne hk]
  | cons e fields ih =>
    obtain ⟨name, old⟩ := e
    rw [insertField]
    by_cases hname : name = key
    · subst hname
      rw [if_pos rfl, List.lookup_cons, List.lookup_cons]
      by_cases hk : k = name
      · simp [hk]
      · simp [hk, beq_false_of_ne hk]
    · rw [if_neg hname, List.lookup_cons, List.lookup_cons, ih]
      by_cases hk : k = name
      · subst hk
        simp [hname]
      · simp [beq_false_of_ne hk]

/-- A key under which only one value is ever inserted holds that value. -/
theorem lookup_insertAll {key : String} {j : Json} {more : List (String × Json)} :
    ∀ {fields : List (String × Json)}, (∀ e ∈ more, e.1 = key → e.2 = j) →
      (key, j) ∈ more ∨ fields.lookup key = some j → (insertAll fields more).lookup key = some j := by
  induction more with
  | nil => simp
  | cons e more ih =>
    intro fields honly h
    rw [List.forall_mem_cons] at honly
    apply ih honly.2
    rw [lookup_insertField]
    by_cases hkey : key = e.1
    · right
      rw [if_pos hkey, honly.1 hkey.symm]
    · rw [if_neg hkey]
      refine h.imp_left ?_
      intro hmem
      rcases List.mem_cons.1 hmem with rfl | hmem
      · exact absurd rfl hkey
      · exact hmem

end Json

namespace Yaml

/-- A number, given the text of a float; what is not finite is written as null. -/
def Number.toJson (floatText : ℚ → String) : Number → Json
  | .posInt n => .int n.toNat
  | .negInt i => .int i
  | .float (.finite q) => .float (floatText q)
  | .float _ => .null

namespace Value

/-- The text of a key, given that of a float. -/
def keyText (floatText : ℚ → String) : Value → Option String
  | .string s => some s
  | .bool b => some (if b then "true" else "false")
  | .number (.posInt n) => some (toString n.toNat)
  | .number (.negInt i) => some (toString i)
  | .number (.float (.finite q)) => some (floatText q)
  | _ => none

mutual

/-- A tree as JSON.  A tagged value is an object with the tag as its only key. -/
def toJson (floatText : ℚ → String) : Value → Option Json
  | .null => some .null
  | .bool b => some (.bool b)
  | .number n => some (n.toJson floatText)
  | .string s => some (.string s)
  | .sequence vs => (toJsonAll floatText vs).map .array
  | .mapping es => (toJsonEntries floatText es).map .object
  | .tagged tag v => (toJson floatText v).map fun j => .object [("!" ++ tag, j)]

def toJsonAll (floatText : ℚ → String) : List Value → Option (List Json)
  | [] => some []
  | v :: vs => do
    let j ← toJson floatText v
    let js ← toJsonAll floatText vs
    some (j :: js)

def toJsonEntries (floatText : ℚ → String) : List (Value × Value) → Option (List (String × Json))
  | [] => some []
  | (key, v) :: es => do
    let text ← keyText floatText key
    let j ← toJson floatText v
    let fields ← toJsonEntries floatText es
    some ((text, j) :: fields)

end

/-! ## When there is one -/

/-- A key with a text: a string, a boolean, an integer or a finite float. -/
def isJsonKey : Value → Bool
  | .string _ | .bool _ => true
  | .number (.float f) => f.isFinite
  | .number _ => true
  | _ => false

mutual

/-- Every key in the tree has a text. -/
def isJson : Value → Bool
  | .sequence vs => isJsonAll vs
  | .mapping es => isJsonEntries es
  | .tagged _ v => v.isJson
  | _ => true

def isJsonAll : List Value → Bool
  | [] => true
  | v :: vs => v.isJson && isJsonAll vs

def isJsonEntries : List (Value × Value) → Bool
  | [] => true
  | (key, v) :: es => key.isJsonKey && v.isJson && isJsonEntries es

end

theorem isSome_keyText (floatText : ℚ → String) (key : Value) :
    (key.keyText floatText).isSome = key.isJsonKey := by
  rw [keyText.eq_def, isJsonKey.eq_def]
  cases key with
  | number n =>
    rcases n with _ | _ | f
    · rfl
    · rfl
    · cases f <;> rfl
  | null | bool | string | sequence | mapping | tagged => rfl

mutual

/-- **A tree has a JSON text exactly if every key in it has one.** -/
theorem isSome_toJson (floatText : ℚ → String) : ∀ v : Value,
    (v.toJson floatText).isSome = v.isJson
  | .null | .bool _ | .number _ | .string _ => rfl
  | .sequence vs => by simp [toJson, isJson, isSome_toJsonAll floatText vs]
  | .mapping es => by simp [toJson, isJson, isSome_toJsonEntries floatText es]
  | .tagged _ v => by simp [toJson, isJson, isSome_toJson floatText v]

theorem isSome_toJsonAll (floatText : ℚ → String) : ∀ vs : List Value,
    (toJsonAll floatText vs).isSome = isJsonAll vs
  | [] => rfl
  | v :: vs => by
    rw [toJsonAll, isJsonAll, ← isSome_toJson floatText v, ← isSome_toJsonAll floatText vs]
    cases v.toJson floatText <;> cases toJsonAll floatText vs <;> rfl

theorem isSome_toJsonEntries (floatText : ℚ → String) : ∀ es : List (Value × Value),
    (toJsonEntries floatText es).isSome = isJsonEntries es
  | [] => rfl
  | (key, v) :: es => by
    rw [toJsonEntries, isJsonEntries, ← isSome_keyText floatText key,
      ← isSome_toJson floatText v, ← isSome_toJsonEntries floatText es]
    cases key.keyText floatText <;> cases v.toJson floatText <;>
      cases toJsonEntries floatText es <;> rfl

end

theorem isJsonEntries_iff {es : Mapping} :
    isJsonEntries es = true ↔ ∀ e ∈ es, e.1.isJsonKey = true ∧ e.2.isJson = true := by
  induction es with
  | nil => simp [isJsonEntries]
  | cons e es ih => rw [isJsonEntries, Bool.and_eq_true, Bool.and_eq_true, ih, List.forall_mem_cons]

theorem isJson_of_asMapping : ∀ {v : Value} {m : Mapping}, v.asMapping = some m →
    v.isJson = isJsonEntries m
  | .tagged _ v, _, h => isJson_of_asMapping (v := v) h
  | .mapping es, _, h => by
    obtain rfl := Option.some.inj h
    rfl

theorem isJson_withMapping (es : Mapping) : ∀ v : Value,
    (v.withMapping es).isJson = isJsonEntries es
  | .tagged _ v => isJson_withMapping es v
  | .null | .bool _ | .number _ | .string _ | .sequence _ | .mapping _ => rfl

theorem isJson_of_isNull : ∀ {v : Value}, v.isNull = true → v.isJson = true
  | .tagged _ v, h => isJson_of_isNull (v := v) h
  | .null, _ => rfl

/-- Equal keys both have a text, or neither has. -/
theorem isJsonKey_of_beq : ∀ {k l : Value}, k.beq l = true → k.isJsonKey = l.isJsonKey
  | .number a, .number b, h => by
    rw [beq, beq_iff_eq] at h
    rw [h]
  | .string s, l, h => by rw [beq_string.1 h]
  | .null, .null, _ | .bool _, .bool _, _ | .sequence _, .sequence _, _
  | .mapping _, .mapping _, _ | .tagged _ _, .tagged _ _, _ => rfl

end Value
end Yaml
