import Mathlib.Data.List.TakeWhile
import SystemReport.Lib.JsonRead

/-!
# What is written is read back

`RoundTrips` is what is to be expected of a writer: a reader finds in the text the value that was
written.  A float is kept as its text; all that is needed is that the text is that of a number which
is not an integer.

There are such writers: `Writer.plain`, whose two texts of a value are spellings of it.
-/

set_option autoImplicit false

namespace Json

/-! ## Texts -/

/-- A character of a string, escaped. -/
def escapeChar (c : Char) : String :=
  if c = '"' then "\\\""
  else if c = '\\' then "\\\\"
  else if c = '\x08' then "\\b"
  else if c = '\x0c' then "\\f"
  else if c = '\n' then "\\n"
  else if c = '\r' then "\\r"
  else if c = '\t' then "\\t"
  else if c.toNat < 0x20 then
    .ofList (['\\', 'u', '0', '0'] ++ [Nat.digitChar (c.toNat / 16), Nat.digitChar (c.toNat % 16)])
  else .singleton c

/-- A string between quotes. -/
def quote (s : String) : String := "\"" ++ .join (s.toList.map escapeChar) ++ "\""

mutual

/-- The compact text of a value. -/
def text : Json → String
  | null => "null"
  | bool b => if b then "true" else "false"
  | int i => toString i
  | float text => text
  | string s => quote s
  | array items => "[" ++ String.intercalate "," (texts items) ++ "]"
  | object fields => "\x7b" ++ String.intercalate "," (fieldTexts fields) ++ "\x7d"

def texts : List Json → List String
  | [] => []
  | j :: js => text j :: texts js

def fieldTexts : List (String × Json) → List String
  | [] => []
  | (key, j) :: fields => (quote key ++ ":" ++ text j) :: fieldTexts fields

end

/-- The start of a line at some depth. -/
def indent (depth : ℕ) : String := .ofList (List.replicate (2 * depth) ' ')

mutual

/-- The text of a value over several lines, where it is at some depth of others. -/
def pretty (depth : ℕ) : Json → String
  | array (item :: items) =>
    "[\n" ++ String.intercalate ",\n" (pretties (depth + 1) (item :: items)) ++ "\n" ++
      indent depth ++ "]"
  | object (field :: fields) =>
    "\x7b\n" ++ String.intercalate ",\n" (prettyFields (depth + 1) (field :: fields)) ++ "\n" ++
      indent depth ++ "\x7d"
  | j => j.text

def pretties (depth : ℕ) : List Json → List String
  | [] => []
  | j :: js => (indent depth ++ pretty depth j) :: pretties depth js

def prettyFields (depth : ℕ) : List (String × Json) → List String
  | [] => []
  | (key, j) :: fields =>
    (indent depth ++ quote key ++ ": " ++ pretty depth j) :: prettyFields depth fields

end

/-- A writer that escapes what has to be escaped, and indents by two. -/
def Writer.plain : Writer where
  toString := text
  toStringPretty := pretty 0

/-! ## Integers -/

/-- No zero leads a number that is positive. -/
theorem head_toDigits {n : ℕ} (h : 0 < n) : (Nat.toDigits 10 n).head? ≠ some '0' := by
  induction n using Nat.strong_induction_on with
  | _ n ih =>
    by_cases hlt : n < 10
    · have hdigit : ∀ m < 10, 0 < m → Nat.digitChar m ≠ '0' := by decide
      rw [Nat.toDigits_of_lt_base hlt]
      exact fun heq => hdigit n hlt h (Option.some.inj heq)
    · rw [Nat.toDigits_of_base_le (by omega) (by omega),
      List.head?_append_of_ne_nil _ Nat.toDigits_ne_nil]
      exact ih (n / 10) (by omega) (by omega)

theorem isDigit_toDigits (n : ℕ) : ∀ c ∈ Nat.toDigits 10 n, c.isDigit = true :=
  fun _ => Nat.isDigit_of_mem_toDigits (by decide) (by decide)

theorem isWhole_toDigits (n : ℕ) : isWhole (Nat.toDigits 10 n) = true := by
  have hdigits : isDigits (Nat.toDigits 10 n) = true := by
    simpa [isDigits, Nat.toDigits_ne_nil] using isDigit_toDigits n
  rw [isWhole, hdigits, Bool.true_and]
  obtain rfl | hpos := Nat.eq_zero_or_pos n
  · rfl
  · rw [bne_iff_ne.2 (head_toDigits hpos), Bool.true_or]

theorem toList_toString_natCast (n : ℕ) : (toString (n : ℤ)).toList = Nat.toDigits 10 n := by
  change (Nat.repr n).toList = _
  rw [Nat.toList_repr]

theorem toList_toString_negSucc (n : ℕ) :
    (toString (Int.negSucc n)).toList = '-' :: Nat.toDigits 10 (n + 1) := by
  change ("-" ++ Nat.repr (n + 1)).toList = _
  rw [String.toList_append, Nat.toList_repr]
  rfl

theorem numberOf_toString (i : ℤ) : numberOf (toString i).toList = some (.int i) := by
  have htake : ∀ n, (Nat.toDigits 10 n).takeWhile Char.isDigit = Nat.toDigits 10 n :=
    fun n => List.takeWhile_eq_self_iff.2 (isDigit_toDigits n)
  have hdrop : ∀ n, (Nat.toDigits 10 n).dropWhile Char.isDigit = [] :=
    fun n => List.dropWhile_eq_nil_iff.2 (isDigit_toDigits n)
  cases i with
  | ofNat n =>
    have hhead : ((Nat.toDigits 10 n).head? == some '-') = false := by
      rw [beq_eq_false_iff_ne]
      intro heq
      exact absurd (isDigit_toDigits n _ (List.mem_of_head? heq)) (by decide)
    rw [Int.ofNat_eq_natCast, toList_toString_natCast]
    simp [numberOf, hhead, htake, hdrop, isWhole_toDigits, isFraction, isExponent]
  | negSucc n =>
    have hzero : Nat.toDigits 10 (n + 1) ≠ ['0'] := by
      intro heq
      have := head_toDigits (Nat.succ_pos n)
      rw [heq] at this
      exact this rfl
    rw [toList_toString_negSucc]
    simp [numberOf, htake, hdrop, isWhole_toDigits, isFraction, isExponent, hzero]
    omega

theorem isWordChar_of_isDigit {c : Char} (h : c.isDigit = true) : isWordChar c = true := by
  simp [isWordChar, Char.isAlphanum, h]

theorem wordOf_of_numberOf {j : Json} {cs : List Char} (h : numberOf cs = some j) :
    wordOf cs = some j := by
  have hne : ∀ name, numberOf name = none → cs ≠ name := by
    rintro name hname rfl
    rw [hname] at h
    cases h
  rw [wordOf, if_neg (hne _ rfl), if_neg (hne _ rfl), if_neg (hne _ rfl), h]

theorem spells_int (i : ℤ) : Spells (.int i) (toString i).toList := by
  refine .word ?_ (wordOf_of_numberOf (numberOf_toString i))
  cases i with
  | ofNat n =>
    rw [Int.ofNat_eq_natCast, toList_toString_natCast]
    exact fun c hc => isWordChar_of_isDigit (isDigit_toDigits n c hc)
  | negSucc n =>
    rw [toList_toString_negSucc, List.forall_mem_cons]
    exact ⟨rfl, fun c hc => isWordChar_of_isDigit (isDigit_toDigits _ c hc)⟩

/-! ## Strings -/

theorem spells_escapeChar (c : Char) : SpellsChar c (escapeChar c).toList := by
  rw [escapeChar]
  split_ifs with h₁ h₂ h₃ h₄ h₅ h₆ h₇ h₈
  · subst h₁; exact .escape rfl
  · subst h₂; exact .escape rfl
  · subst h₃; exact .escape rfl
  · subst h₄; exact .escape rfl
  · subst h₅; exact .escape rfl
  · subst h₆; exact .escape rfl
  · subst h₇; exact .escape rfl
  · have hhex : ∀ n < 0x20, fourHex '0' '0' (Nat.digitChar (n / 16)) (Nat.digitChar (n % 16)) =
        some n ∧ isHigh n = false ∧ isLow n = false := by decide
    obtain ⟨hfour, hhigh, hlow⟩ := hhex c.toNat h₈
    have hspells := SpellsChar.hex hfour hhigh hlow
    rw [Char.ofNat_toNat] at hspells
    simpa using hspells
  · have hplain : isPlain c = true := by
      simp [isPlain, h₁, h₂, Nat.le_of_not_lt h₈]
    simpa using SpellsChar.plain hplain

/-- The characters of a string between its quotes. -/
def inner (s : String) : List Char := s.toList.flatMap fun c => (escapeChar c).toList

theorem toList_quote (s : String) : (quote s).toList = '"' :: (inner s ++ ['"']) := by
  simp [quote, inner, String.toList_join, List.flatMap_map]

theorem spells_inner (s : String) : SpellsString s.toList (inner s) := by
  rw [inner]
  induction s.toList with
  | nil => exact .nil
  | cons c cs ih => exact .cons (spells_escapeChar c) ih

theorem spells_quote (s : String) : Spells (.string s) (quote s).toList := by
  have h := Spells.string (spells_inner s)
  rwa [String.ofList_toList, ← toList_quote] at h

/-! ## Values -/

/-- The text of a float: a number that is not an integer. -/
structure FloatText (t : String) : Prop where
  word : ∀ c ∈ t.toList, isWordChar c = true
  number : numberOf t.toList = some (.float t)

mutual

/-- The texts of the floats in a value. -/
def floats : Json → List String
  | .float t => [t]
  | .array items => floatsAll items
  | .object fields => floatsFields fields
  | _ => []

def floatsAll : List Json → List String
  | [] => []
  | j :: js => floats j ++ floatsAll js

def floatsFields : List (String × Json) → List String
  | [] => []
  | (_, j) :: fields => floats j ++ floatsFields fields

end

/-- Every float in a value has the text of one. -/
def Numeric (texts : List String) : Prop := ∀ t ∈ texts, FloatText t

/-- What is written of a value is read back as the value. -/
def RoundTrips (write : Json → String) : Prop :=
  ∀ j : Json, Numeric j.floats → parse (write j) = some j

theorem numeric_append {texts more : List String} :
    Numeric (texts ++ more) ↔ Numeric texts ∧ Numeric more :=
  List.forall_mem_append

theorem spells_scalar {j : Json} (h : Numeric j.floats) (harray : ∀ items, j ≠ .array items)
    (hobject : ∀ fields, j ≠ .object fields) : Spells j j.text.toList := by
  cases j with
  | null => exact .word (by simp [text, isWordChar]) rfl
  | bool b => cases b <;> exact .word (by simp [text, isWordChar]) rfl
  | int i => exact spells_int i
  | float t =>
    have ht := h t List.mem_cons_self
    exact .word ht.word (wordOf_of_numberOf ht.number)
  | string s => exact spells_quote s
  | array items => exact absurd rfl (harray items)
  | object fields => exact absurd rfl (hobject fields)

theorem space_nil : Space [] := by
  rintro _ ⟨⟩

theorem space_indent (depth : ℕ) : Space ("\n" ++ indent depth).toList := by
  intro c hc
  rw [String.toList_append] at hc
  rcases List.mem_append.1 hc with hc | hc
  · rw [List.mem_singleton.1 hc]
    rfl
  · rw [indent, String.toList_ofList] at hc
    rw [List.eq_of_mem_replicate hc]
    rfl

theorem space_blank : Space " ".toList := by
  intro c hc
  rw [List.mem_singleton.1 hc]
  rfl

/-! ### Items and fields

Both serializations put commas between the parts, and differ in the white space around them. -/

section Parts

variable {write : Json → String} {lead : String} {tail : List Char}

theorem spellsItems_intercalate {items : List Json} (hlead : Space lead.toList)
    (htail : Space tail) (hne : items ≠ []) (h : ∀ j ∈ items, Spells j (write j).toList) :
    SpellsItems items
      ((String.intercalate "," (items.map fun j => lead ++ write j)).toList ++ tail) := by
  induction items with
  | nil => exact absurd rfl hne
  | cons j items ih =>
    rw [List.forall_mem_cons] at h
    cases items with
    | nil => simpa using SpellsItems.single hlead h.1 htail
    | cons k items =>
      have hitems := SpellsItems.cons hlead h.1 space_nil (ih (by simp) h.2)
      simpa [String.intercalate_cons_cons] using hitems

theorem spellsFields_intercalate {gap : String} {fields : List (String × Json)}
    (hlead : Space lead.toList) (hgap : Space gap.toList) (htail : Space tail) (hne : fields ≠ [])
    (h : ∀ e ∈ fields, Spells e.2 (write e.2).toList) :
    SpellsFields fields ((String.intercalate ","
      (fields.map fun e => lead ++ quote e.1 ++ ":" ++ gap ++ write e.2)).toList ++ tail) := by
  induction fields with
  | nil => exact absurd rfl hne
  | cons e fields ih =>
    rw [List.forall_mem_cons] at h
    cases fields with
    | nil =>
      have hfields := SpellsFields.single hlead (spells_inner e.1) space_nil hgap h.1 htail
      simpa [toList_quote] using hfields
    | cons e' fields =>
      have hfields := SpellsFields.cons hlead (spells_inner e.1) space_nil hgap h.1 space_nil
        (ih (by simp) h.2)
      simpa [String.intercalate_cons_cons, toList_quote] using hfields

end Parts

theorem texts_eq_map (items : List Json) : texts items = items.map text := by
  induction items with
  | nil => rfl
  | cons j items ih => rw [texts, ih, List.map_cons]

theorem fieldTexts_eq_map (fields : List (String × Json)) :
    fieldTexts fields = fields.map fun e => quote e.1 ++ ":" ++ text e.2 := by
  induction fields with
  | nil => rfl
  | cons e fields ih => rw [fieldTexts, ih, List.map_cons]

theorem pretties_eq_map (depth : ℕ) (items : List Json) :
    pretties depth items = items.map fun j => indent depth ++ pretty depth j := by
  induction items with
  | nil => rfl
  | cons j items ih => rw [pretties, ih, List.map_cons]

theorem prettyFields_eq_map (depth : ℕ) (fields : List (String × Json)) :
    prettyFields depth fields =
      fields.map fun e => indent depth ++ quote e.1 ++ ": " ++ pretty depth e.2 := by
  induction fields with
  | nil => rfl
  | cons e fields ih => rw [prettyFields, ih, List.map_cons]

/-- A newline before each part, instead of one behind each comma. -/
theorem intercalate_newline {parts : List String} (hne : parts ≠ []) :
    "\n" ++ String.intercalate ",\n" parts =
      String.intercalate "," (parts.map fun part => "\n" ++ part) := by
  induction parts with
  | nil => exact absurd rfl hne
  | cons part parts ih =>
    cases parts with
    | nil => simp
    | cons part' parts =>
      rw [List.map_cons, List.map_cons, String.intercalate_cons_cons, String.intercalate_cons_cons,
        ← List.map_cons, ← ih (by simp)]
      simp [← String.toList_inj]

/-! ### Both serializations -/

/-- What is written of a value spells it. -/
structure Written (j : Json) : Prop where
  compact : Spells j j.text.toList
  lines : ∀ depth, Spells j (j.pretty depth).toList

theorem Written.array {items : List Json} (h : ∀ j ∈ items, Written j) :
    Written (.array items) := by
  cases items with
  | nil =>
    have hempty : Spells (.array []) (Json.array []).text.toList := .emptyArray space_nil
    exact ⟨hempty, fun _ => by simpa only [pretty] using hempty⟩
  | cons j items =>
    refine ⟨?_, fun depth => ?_⟩
    · have hitems := @spellsItems_intercalate text "" [] _ space_nil space_nil
        (List.cons_ne_nil j items) fun k hk => (h k hk).compact
      simpa [text, texts_eq_map] using Spells.array hitems
    · have hitems := spellsItems_intercalate (space_indent (depth + 1)) (space_indent depth)
        (List.cons_ne_nil j items) fun k hk => (h k hk).lines (depth + 1)
      have hlines := @intercalate_newline (pretties (depth + 1) (j :: items)) (by simp [pretties])
      rw [pretties_eq_map, List.map_map] at hlines
      simp only [Function.comp_def, ← String.append_assoc] at hlines
      rw [← hlines] at hitems
      simpa [pretty, pretties_eq_map] using Spells.array hitems

theorem Written.object {fields : List (String × Json)} (h : ∀ e ∈ fields, Written e.2) :
    Written (.object fields) := by
  cases fields with
  | nil =>
    have hempty : Spells (.object []) (Json.object []).text.toList := .emptyObject space_nil
    exact ⟨hempty, fun _ => by simpa only [pretty] using hempty⟩
  | cons e fields =>
    refine ⟨?_, fun depth => ?_⟩
    · have hfields := @spellsFields_intercalate text "" [] "" _ space_nil space_nil space_nil
        (List.cons_ne_nil e fields) fun e' he' => (h e' he').compact
      simpa [text, fieldTexts_eq_map] using Spells.object hfields
    · have hfields := @spellsFields_intercalate _ _ _ " " _ (space_indent (depth + 1)) space_blank
        (space_indent depth) (List.cons_ne_nil e fields) fun e' he' => (h e' he').lines (depth + 1)
      have hlines := @intercalate_newline (prettyFields (depth + 1) (e :: fields))
        (by simp [prettyFields])
      rw [prettyFields_eq_map, List.map_map] at hlines
      simp only [Function.comp_def, ← String.append_assoc] at hlines
      have hsame : ∀ e : String × Json, "\n" ++ indent (depth + 1) ++ quote e.1 ++ ":" ++ " " ++
          pretty (depth + 1) e.2 =
            "\n" ++ indent (depth + 1) ++ quote e.1 ++ ": " ++ pretty (depth + 1) e.2 := by
        intro e
        simp [← String.toList_inj]
      simp only [hsame] at hfields
      rw [← hlines] at hfields
      simpa [pretty, prettyFields_eq_map] using Spells.object hfields

mutual

theorem written : ∀ {j : Json}, Numeric j.floats → Written j
  | .null, h | .bool _, h | .int _, h | .float _, h | .string _, h =>
    have hscalar := spells_scalar h (by simp) (by simp)
    ⟨hscalar, fun _ => by simpa only [pretty] using hscalar⟩
  | .array _, h => .array (writtenAll h)
  | .object _, h => .object (writtenFields h)

theorem writtenAll : ∀ {items : List Json}, Numeric (floatsAll items) → ∀ j ∈ items, Written j
  | [], _, _, hj => absurd hj List.not_mem_nil
  | j :: items, h, k, hk => by
    rw [floatsAll, numeric_append] at h
    rcases List.mem_cons.1 hk with heq | hk
    · rw [heq]
      exact written h.1
    · exact writtenAll h.2 k hk

theorem writtenFields : ∀ {fields : List (String × Json)}, Numeric (floatsFields fields) →
    ∀ e ∈ fields, Written e.2
  | [], _, _, he => absurd he List.not_mem_nil
  | (key, j) :: fields, h, e, he => by
    rw [floatsFields, numeric_append] at h
    rcases List.mem_cons.1 he with heq | he
    · rw [heq]
      exact written h.1
    · exact writtenFields h.2 e he

end

/-- **So is its text over several lines.** -/
theorem roundTrips_pretty (depth : ℕ) : RoundTrips (pretty depth) :=
  fun _ h => parse_of_spells ((written h).lines depth)

end Json
