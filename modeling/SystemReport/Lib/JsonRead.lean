import SystemReport.Lib.Json

/-!
# Reading JSON

`Spells` is the grammar of JSON: a value and its texts, with white space wherever it may stand.
`Json.parse` reads a text by recursive descent, and finds the value that the text spells
(`parse_of_spells`), so that a text spells one value at most.
-/

set_option autoImplicit false

namespace Json

/-! ## Words

What is not punctuation is a string or a word: a literal name or a number. -/

/-- White space. -/
def isSpace (c : Char) : Bool := c == ' ' || c == '\n' || c == '\r' || c == '\t'

/-- The characters of literal names and numbers. -/
def isWordChar (c : Char) : Bool := c.isAlphanum || c == '+' || c == '-' || c == '.'

/-- One digit or more. -/
def isDigits (cs : List Char) : Bool := !cs.isEmpty && cs.all Char.isDigit

/-- The integer part of a number: no zero leads it. -/
def isWhole (cs : List Char) : Bool := isDigits cs && (cs.head? != some '0' || cs.length == 1)

/-- An exponent, or nothing. -/
def isExponent : List Char → Bool
  | [] => true
  | e :: '+' :: cs | e :: '-' :: cs => (e == 'e' || e == 'E') && isDigits cs
  | e :: cs => (e == 'e' || e == 'E') && isDigits cs

/-- What may follow the integer part: a fraction, an exponent, or both. -/
def isFraction : List Char → Bool
  | '.' :: cs => isDigits (cs.takeWhile Char.isDigit) && isExponent (cs.dropWhile Char.isDigit)
  | cs => isExponent cs

/-- A number.  The integer minus zero is taken for a float. -/
def numberOf (cs : List Char) : Option Json :=
  let negative := cs.head? == some '-'
  let unsigned := if negative then cs.tail else cs
  let whole := unsigned.takeWhile Char.isDigit
  let rest := unsigned.dropWhile Char.isDigit
  if !isWhole whole || !isFraction rest then none
  else if !rest.isEmpty || (negative && whole == ['0']) then some (.float (.ofList cs))
  else
    let n : ℤ := Nat.ofDigitChars 10 whole 0
    some (.int (if negative then -n else n))

/-- A word. -/
def wordOf (cs : List Char) : Option Json :=
  if cs = "null".toList then some .null
  else if cs = "true".toList then some (.bool true)
  else if cs = "false".toList then some (.bool false)
  else numberOf cs

/-! ## Strings -/

/-- The escapes of one letter, and what they stand for. -/
def escapes : List (Char × Char) :=
  [('"', '"'), ('\\', '\\'), ('/', '/'), ('b', '\x08'), ('f', '\x0c'), ('n', '\n'), ('r', '\r'),
    ('t', '\t')]

/-- The value of a hexadecimal digit. -/
def hexValue (c : Char) : Option ℕ :=
  if c.isDigit then some (c.toNat - 48)
  else if 'a' ≤ c ∧ c ≤ 'f' then some (c.toNat - 87)
  else if 'A' ≤ c ∧ c ≤ 'F' then some (c.toNat - 55)
  else none

/-- The value of four of them. -/
def fourHex (a b c d : Char) : Option ℕ := do
  let a ← hexValue a
  let b ← hexValue b
  let c ← hexValue c
  let d ← hexValue d
  some (((a * 16 + b) * 16 + c) * 16 + d)

/-- The first half of a surrogate pair. -/
def isHigh (n : ℕ) : Bool := 0xD800 ≤ n && n < 0xDC00

/-- The second half of a surrogate pair. -/
def isLow (n : ℕ) : Bool := 0xDC00 ≤ n && n < 0xE000

/-- The character of a surrogate pair. -/
def paired (high low : ℕ) : Char :=
  .ofNat (0x10000 + (high - 0xD800) * 0x400 + (low - 0xDC00))

/-- A character that stands for itself. -/
def isPlain (c : Char) : Bool := c != '"' && c != '\\' && 0x20 ≤ c.toNat

/-- One character of a string, and what follows it. -/
def readChar : List Char → Option (Char × List Char)
  | [] => none
  | '\\' :: 'u' :: a :: b :: c :: d :: cs => do
    let n ← fourHex a b c d
    if isLow n then none
    else if isHigh n then
      match cs with
      | '\\' :: 'u' :: a :: b :: c :: d :: cs => do
        let m ← fourHex a b c d
        if isLow m then some (paired n m, cs) else none
      | _ => none
    else some (.ofNat n, cs)
  | '\\' :: e :: cs => (escapes.lookup e).map fun c => (c, cs)
  | c :: cs => if isPlain c then some (c, cs) else none

/-- A string behind its opening quote, and what follows it. -/
def readString : ℕ → List Char → Option (List Char × List Char)
  | 0, _ => none
  | fuel + 1, cs =>
    if cs.head? = some '"' then some ([], cs.tail)
    else do
      let (c, cs) ← readChar cs
      let (s, cs) ← readString fuel cs
      some (c :: s, cs)

/-! ## Values -/

/-- Skip the white space at the start of a text. -/
def skipSpace (cs : List Char) : List Char := cs.dropWhile isSpace

mutual

/-- The value at the start of a text, and what follows it. -/
def readValue : ℕ → List Char → Option (Json × List Char)
  | 0, _ => none
  | fuel + 1, cs =>
    match skipSpace cs with
    | [] => none
    | c :: cs =>
      if c = '"' then do
        let (s, cs) ← readString (cs.length + 1) cs
        some (.string (.ofList s), cs)
      else if c = '[' then
        if (skipSpace cs).head? = some ']' then some (.array [], (skipSpace cs).tail)
        else do
          let (items, cs) ← readItems fuel cs
          some (.array items, cs)
      else if c = '\x7b' then
        if (skipSpace cs).head? = some '\x7d' then some (.object [], (skipSpace cs).tail)
        else do
          let (fields, cs) ← readFields fuel cs
          some (.object fields, cs)
      else do
        let j ← wordOf ((c :: cs).takeWhile isWordChar)
        some (j, (c :: cs).dropWhile isWordChar)

/-- The items of an array up to its end. -/
def readItems : ℕ → List Char → Option (List Json × List Char)
  | 0, _ => none
  | fuel + 1, cs => do
    let (j, cs) ← readValue fuel cs
    match skipSpace cs with
    | [] => none
    | c :: cs =>
      if c = ',' then do
        let (items, cs) ← readItems fuel cs
        some (j :: items, cs)
      else if c = ']' then some ([j], cs)
      else none

/-- The fields of an object up to its end. -/
def readFields : ℕ → List Char → Option (List (String × Json) × List Char)
  | 0, _ => none
  | fuel + 1, cs =>
    match skipSpace cs with
    | [] => none
    | c :: cs =>
      if c = '"' then do
        let (key, cs) ← readString (cs.length + 1) cs
        match skipSpace cs with
        | [] => none
        | c :: cs =>
          if c = ':' then do
            let (j, cs) ← readValue fuel cs
            match skipSpace cs with
            | [] => none
            | c :: cs =>
              if c = ',' then do
                let (fields, cs) ← readFields fuel cs
                some ((.ofList key, j) :: fields, cs)
              else if c = '\x7d' then some ([(.ofList key, j)], cs)
              else none
          else none
      else none

end

/-- The value of a text. -/
def parse (s : String) : Option Json := do
  let (j, cs) ← readValue s.toList.length s.toList
  if skipSpace cs = [] then some j else none

/-! ## The grammar -/

/-- White space only. -/
def Space (cs : List Char) : Prop := ∀ c ∈ cs, isSpace c = true

/-- The texts of a character in a string. -/
inductive SpellsChar : Char → List Char → Prop
  | plain {c : Char} (h : isPlain c = true) : SpellsChar c [c]
  | escape {e c : Char} (h : escapes.lookup e = some c) : SpellsChar c ['\\', e]
  | hex {a b c d : Char} {n : ℕ} (h : fourHex a b c d = some n) (hhigh : isHigh n = false)
      (hlow : isLow n = false) : SpellsChar (.ofNat n) ['\\', 'u', a, b, c, d]
  | pair {a b c d a' b' c' d' : Char} {n m : ℕ} (hn : fourHex a b c d = some n)
      (hm : fourHex a' b' c' d' = some m) (hhigh : isHigh n = true) (hlow : isLow m = true) :
      SpellsChar (paired n m) ['\\', 'u', a, b, c, d, '\\', 'u', a', b', c', d']

/-- The texts of a string, without its quotes. -/
inductive SpellsString : List Char → List Char → Prop
  | nil : SpellsString [] []
  | cons {c : Char} {s cs cs' : List Char} (h : SpellsChar c cs) (hs : SpellsString s cs') :
      SpellsString (c :: s) (cs ++ cs')

mutual

/-- The texts of a value. -/
inductive Spells : Json → List Char → Prop
  | word {j : Json} {cs : List Char} (hword : ∀ c ∈ cs, isWordChar c = true)
      (h : wordOf cs = some j) : Spells j cs
  | string {s cs : List Char} (h : SpellsString s cs) :
      Spells (.string (.ofList s)) ('"' :: (cs ++ ['"']))
  | emptyArray {w : List Char} (hw : Space w) : Spells (.array []) ('[' :: (w ++ [']']))
  | array {items : List Json} {cs : List Char} (h : SpellsItems items cs) :
      Spells (.array items) ('[' :: (cs ++ [']']))
  | emptyObject {w : List Char} (hw : Space w) : Spells (.object []) ('\x7b' :: (w ++ ['\x7d']))
  | object {fields : List (String × Json)} {cs : List Char} (h : SpellsFields fields cs) :
      Spells (.object fields) ('\x7b' :: (cs ++ ['\x7d']))

/-- The texts of the items of an array. -/
inductive SpellsItems : List Json → List Char → Prop
  | single {j : Json} {w cs w' : List Char} (hw : Space w) (h : Spells j cs) (hw' : Space w') :
      SpellsItems [j] (w ++ (cs ++ w'))
  | cons {j : Json} {items : List Json} {w cs w' rest : List Char} (hw : Space w)
      (h : Spells j cs) (hw' : Space w') (hrest : SpellsItems items rest) :
      SpellsItems (j :: items) (w ++ (cs ++ (w' ++ ',' :: rest)))

/-- The texts of the fields of an object. -/
inductive SpellsFields : List (String × Json) → List Char → Prop
  | single {j : Json} {key w k w₁ w₂ cs w' : List Char} (hw : Space w) (hkey : SpellsString key k)
      (hw₁ : Space w₁) (hw₂ : Space w₂) (h : Spells j cs) (hw' : Space w') :
      SpellsFields [(.ofList key, j)] (w ++ '"' :: (k ++ '"' :: (w₁ ++ ':' :: (w₂ ++ (cs ++ w')))))
  | cons {j : Json} {fields : List (String × Json)} {key w k w₁ w₂ cs w' rest : List Char}
      (hw : Space w) (hkey : SpellsString key k) (hw₁ : Space w₁) (hw₂ : Space w₂)
      (h : Spells j cs) (hw' : Space w') (hrest : SpellsFields fields rest) :
      SpellsFields ((.ofList key, j) :: fields)
        (w ++ '"' :: (k ++ '"' :: (w₁ ++ ':' :: (w₂ ++ (cs ++ (w' ++ ',' :: rest))))))

end

/-! ## The reader finds what a text spells -/

theorem skipSpace_append {w : List Char} (hw : Space w) (cs : List Char) :
    skipSpace (w ++ cs) = skipSpace cs :=
  List.dropWhile_append_of_pos hw

theorem skipSpace_cons {c : Char} (h : isSpace c = false) (cs : List Char) :
    skipSpace (c :: cs) = c :: cs := by
  rw [skipSpace, List.dropWhile_cons_of_neg (by simp [h])]

theorem readValue_append {w : List Char} (hw : Space w) (fuel : ℕ) (cs : List Char) :
    readValue fuel (w ++ cs) = readValue fuel cs := by
  cases fuel with
  | zero => rfl
  | succ fuel => rw [readValue, readValue, skipSpace_append hw]

theorem readChar_of_spells {c : Char} {cs : List Char} (h : SpellsChar c cs) (rest : List Char) :
    readChar (cs ++ rest) = some (c, rest) := by
  cases h with
  | plain h =>
    have hne : c ≠ '\\' := by
      rintro rfl
      exact absurd h (by decide)
    simp [readChar, hne, h]
  | @escape e _ h =>
    have hne : e ≠ 'u' := by
      rintro rfl
      rw [show escapes.lookup 'u' = none from rfl] at h
      cases h
    simp [readChar, hne, h]
  | hex h hhigh hlow => simp [readChar, h, hhigh, hlow]
  | @pair _ _ _ _ _ _ _ _ n m hn hm hhigh hlow =>
    have hnot : isLow n = false := by
      simp only [isHigh, isLow, Bool.and_eq_true, decide_eq_true_eq, Bool.and_eq_false_iff,
        decide_eq_false_iff_not] at hhigh ⊢
      omega
    simp [readChar, hn, hm, hhigh, hlow, hnot]

/-- A character is not spelled like the quote that ends the string. -/
theorem head_of_spellsChar {c : Char} {cs : List Char} (h : SpellsChar c cs) (rest : List Char) :
    (cs ++ rest).head? ≠ some '"' := by
  cases h with
  | plain h =>
    rw [List.singleton_append, List.head?_cons, Ne, Option.some.injEq]
    rintro rfl
    exact absurd h (by decide)
  | escape | hex | pair => simp

theorem SpellsChar.length_pos {c : Char} {cs : List Char} (h : SpellsChar c cs) :
    0 < cs.length := by
  cases h <;> simp

theorem readString_of_spells {s cs : List Char} (h : SpellsString s cs) :
    ∀ {fuel : ℕ} {rest : List Char}, cs.length < fuel →
      readString fuel (cs ++ '"' :: rest) = some (s, rest) := by
  induction h with
  | nil =>
    rintro (_ | fuel) rest hfuel
    · cases hfuel
    · rfl
  | @cons c s cs cs' h _ ih =>
    rintro (_ | fuel) rest hfuel
    · cases hfuel
    · have hpos := h.length_pos
      rw [List.length_append] at hfuel
      rw [List.append_assoc, readString, if_neg (head_of_spellsChar h _), readChar_of_spells h]
      have hread := @ih fuel rest (by omega)
      simp [hread]

/-- A text that does not go on with a word. -/
def Stops (rest : List Char) : Prop := ∀ c ∈ rest.head?, isWordChar c = false

theorem Stops.takeWhile {rest : List Char} (h : Stops rest) : rest.takeWhile isWordChar = [] := by
  cases rest with
  | nil => rfl
  | cons c rest => rw [List.takeWhile_cons_of_neg (by simp [h c rfl])]

theorem Stops.dropWhile {rest : List Char} (h : Stops rest) : rest.dropWhile isWordChar = rest := by
  cases rest with
  | nil => rfl
  | cons c rest => rw [List.dropWhile_cons_of_neg (by simp [h c rfl])]

theorem not_isWordChar_of_isSpace {c : Char} (h : isSpace c = true) : isWordChar c = false := by
  simp only [isSpace, Bool.or_eq_true, beq_iff_eq] at h
  rcases h with ((rfl | rfl) | rfl) | rfl <;> rfl

theorem stops_append {w rest : List Char} (hw : Space w) (h : Stops rest) : Stops (w ++ rest) := by
  cases w with
  | nil => exact h
  | cons c w =>
    rintro _ ⟨⟩
    exact not_isWordChar_of_isSpace (hw c List.mem_cons_self)

theorem stops_cons {c : Char} (h : isWordChar c = false) (rest : List Char) :
    Stops (c :: rest) := by
  rintro _ ⟨⟩
  exact h

/-- What a value starts with. -/
theorem head_of_spells {j : Json} {cs : List Char} (h : Spells j cs) :
    ∃ c cs', cs = c :: cs' ∧ isSpace c = false ∧ c ≠ ']' := by
  cases h with
  | word hword h =>
    cases cs with
    | nil =>
      rw [show wordOf [] = none from rfl] at h
      cases h
    | cons c cs =>
      have hc := hword c List.mem_cons_self
      refine ⟨c, cs, rfl, Bool.eq_false_iff.2 fun hspace => ?_, ?_⟩
      · rw [not_isWordChar_of_isSpace hspace] at hc
        cases hc
      · rintro rfl
        cases hc
  | string | emptyArray | array | emptyObject | object => exact ⟨_, _, rfl, rfl, by decide⟩

theorem head_of_spellsItems {items : List Json} {cs : List Char} (h : SpellsItems items cs)
    (rest : List Char) : (skipSpace (cs ++ rest)).head? ≠ some ']' := by
  cases h with
  | single hw h hw' | cons hw h hw' hrest =>
    obtain ⟨c, cs', rfl, hspace, hne⟩ := head_of_spells h
    rw [List.append_assoc, skipSpace_append hw, List.cons_append, List.cons_append,
      skipSpace_cons hspace]
    exact fun heq => hne (Option.some.inj heq)

theorem head_of_spellsFields {fields : List (String × Json)} {cs : List Char}
    (h : SpellsFields fields cs) (rest : List Char) :
    (skipSpace (cs ++ rest)).head? ≠ some '\x7d' := by
  cases h with
  | single hw | cons hw =>
    rw [List.append_assoc, skipSpace_append hw, List.cons_append, skipSpace_cons rfl]
    exact fun heq => absurd (Option.some.inj heq) (by decide)

/-- What follows a value inside of an array or an object. -/
theorem stops_of_space {w : List Char} (hw : Space w) {c : Char} (hc : isWordChar c = false)
    (rest : List Char) : Stops (w ++ c :: rest) :=
  stops_append hw (stops_cons hc rest)

theorem readValue_word {j : Json} {cs : List Char} (hword : ∀ c ∈ cs, isWordChar c = true)
    (h : wordOf cs = some j) {fuel : ℕ} {rest : List Char} (hfuel : cs.length ≤ fuel)
    (hrest : Stops rest) : readValue fuel (cs ++ rest) = some (j, rest) := by
  have htake : (cs ++ rest).takeWhile isWordChar = cs := by
    rw [List.takeWhile_append_of_pos hword, hrest.takeWhile, List.append_nil]
  have hdrop : (cs ++ rest).dropWhile isWordChar = rest := by
    rw [List.dropWhile_append_of_pos hword, hrest.dropWhile]
  obtain ⟨c, cs, rfl, hspace, -⟩ := head_of_spells (.word hword h)
  obtain _ | fuel := fuel
  · cases hfuel
  have hne : ∀ d, isWordChar d = false → c ≠ d := by
    rintro d hd rfl
    rw [hword c List.mem_cons_self] at hd
    cases hd
  rw [List.cons_append] at htake hdrop ⊢
  rw [readValue, skipSpace_cons hspace]
  dsimp only
  rw [if_neg (hne _ rfl), if_neg (hne _ rfl), if_neg (hne _ rfl), htake, hdrop, h]
  rfl

mutual

theorem readValue_of_spells : ∀ {j : Json} {cs : List Char}, Spells j cs → ∀ {fuel : ℕ}
    {rest : List Char}, cs.length ≤ fuel → Stops rest →
      readValue fuel (cs ++ rest) = some (j, rest)
  | _, _, .word hword h, _, _, hfuel, hrest => readValue_word hword h hfuel hrest
  | _, _, .string h, fuel, rest, hfuel, _ => by
    obtain _ | fuel := fuel
    · cases hfuel
    rw [List.cons_append, List.append_assoc, readValue, skipSpace_cons rfl]
    dsimp only
    rw [if_pos rfl, List.singleton_append,
      readString_of_spells h (by simp only [List.length_append]; omega)]
    rfl
  | _, _, .emptyArray hw, fuel, rest, hfuel, _ => by
    obtain _ | fuel := fuel
    · cases hfuel
    rw [List.cons_append, List.append_assoc, readValue, skipSpace_cons rfl]
    dsimp only
    rw [if_neg (by decide), if_pos rfl, skipSpace_append hw, List.singleton_append,
      skipSpace_cons rfl]
    rfl
  | _, _, .array h, fuel, rest, hfuel, _ => by
    obtain _ | fuel := fuel
    · cases hfuel
    rw [List.cons_append, List.append_assoc, readValue, skipSpace_cons rfl]
    dsimp only
    rw [if_neg (by decide), if_pos rfl, if_neg (head_of_spellsItems h _), List.singleton_append,
      readItems_of_spells h (Nat.lt_of_succ_le (by simpa using hfuel))]
    rfl
  | _, _, .emptyObject hw, fuel, rest, hfuel, _ => by
    obtain _ | fuel := fuel
    · cases hfuel
    rw [List.cons_append, List.append_assoc, readValue, skipSpace_cons rfl]
    dsimp only
    rw [if_neg (by decide), if_neg (by decide), if_pos rfl, skipSpace_append hw,
      List.singleton_append, skipSpace_cons rfl]
    rfl
  | _, _, .object h, fuel, rest, hfuel, _ => by
    obtain _ | fuel := fuel
    · cases hfuel
    rw [List.cons_append, List.append_assoc, readValue, skipSpace_cons rfl]
    dsimp only
    rw [if_neg (by decide), if_neg (by decide), if_pos rfl, if_neg (head_of_spellsFields h _),
      List.singleton_append, readFields_of_spells h (Nat.lt_of_succ_le (by simpa using hfuel))]
    rfl

theorem readItems_of_spells : ∀ {items : List Json} {cs : List Char}, SpellsItems items cs →
    ∀ {fuel : ℕ} {rest : List Char}, cs.length < fuel →
      readItems fuel (cs ++ ']' :: rest) = some (items, rest)
  | _, _, .single hw h hw', fuel, rest, hfuel => by
    obtain _ | fuel := fuel
    · cases hfuel
    simp only [List.length_append] at hfuel
    rw [List.append_assoc, readItems, readValue_append hw, List.append_assoc,
      readValue_of_spells h (by omega) (stops_of_space hw' rfl rest), Option.bind_eq_bind,
      Option.bind_some]
    dsimp only
    rw [skipSpace_append hw', skipSpace_cons rfl]
    rfl
  | _, _, .cons hw h hw' hrest, fuel, rest, hfuel => by
    obtain _ | fuel := fuel
    · cases hfuel
    simp only [List.length_append, List.length_cons] at hfuel
    rw [List.append_assoc, readItems, readValue_append hw, List.append_assoc, List.append_assoc,
      List.cons_append, readValue_of_spells h (by omega) (stops_of_space hw' rfl _),
      Option.bind_eq_bind, Option.bind_some]
    dsimp only
    rw [skipSpace_append hw', skipSpace_cons rfl]
    dsimp only
    rw [if_pos rfl, readItems_of_spells hrest (by omega)]
    rfl

theorem readFields_of_spells : ∀ {fields : List (String × Json)} {cs : List Char},
    SpellsFields fields cs → ∀ {fuel : ℕ} {rest : List Char}, cs.length < fuel →
      readFields fuel (cs ++ '\x7d' :: rest) = some (fields, rest)
  | _, _, .single hw hkey hw₁ hw₂ h hw', fuel, rest, hfuel => by
    obtain _ | fuel := fuel
    · cases hfuel
    simp only [List.length_append, List.length_cons] at hfuel
    simp only [List.append_assoc, List.cons_append]
    rw [readFields, skipSpace_append hw, skipSpace_cons rfl]
    dsimp only
    rw [if_pos rfl, readString_of_spells hkey (by simp only [List.length_append]; omega),
      Option.bind_eq_bind, Option.bind_some]
    dsimp only
    rw [skipSpace_append hw₁, skipSpace_cons rfl]
    dsimp only
    rw [if_pos rfl, readValue_append hw₂,
      readValue_of_spells h (by omega) (stops_of_space hw' rfl rest), Option.bind_eq_bind,
      Option.bind_some]
    dsimp only
    rw [skipSpace_append hw', skipSpace_cons rfl]
    rfl
  | _, _, .cons hw hkey hw₁ hw₂ h hw' hrest, fuel, rest, hfuel => by
    obtain _ | fuel := fuel
    · cases hfuel
    simp only [List.length_append, List.length_cons] at hfuel
    simp only [List.append_assoc, List.cons_append]
    rw [readFields, skipSpace_append hw, skipSpace_cons rfl]
    dsimp only
    rw [if_pos rfl, readString_of_spells hkey (by simp only [List.length_append]; omega),
      Option.bind_eq_bind, Option.bind_some]
    dsimp only
    rw [skipSpace_append hw₁, skipSpace_cons rfl]
    dsimp only
    rw [if_pos rfl, readValue_append hw₂,
      readValue_of_spells h (by omega) (stops_of_space hw' rfl _), Option.bind_eq_bind,
      Option.bind_some]
    dsimp only
    rw [skipSpace_append hw', skipSpace_cons rfl]
    dsimp only
    rw [if_pos rfl, readFields_of_spells hrest (by omega)]
    rfl

end

/-- **The reader finds what a text spells.** -/
theorem parse_of_spells {j : Json} {s : String} (h : Spells j s.toList) : parse s = some j := by
  have hread := @readValue_of_spells _ _ h _ [] le_rfl (by rintro _ ⟨⟩)
  rw [List.append_nil] at hread
  rw [parse, hread]
  rfl

end Json
