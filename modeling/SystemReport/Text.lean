import Mathlib.Data.List.Basic
import SystemReport.Lib.F64
import SystemReport.Lib.Search

/-!
# Text

The operations on `str` that the program uses, as functions on lists of characters.
-/

set_option autoImplicit false

namespace SystemReport
namespace Text

/-- `char::is_whitespace`: the Unicode property `White_Space`. -/
def isWhitespace (c : Char) : Bool :=
  let n := c.toNat
  (9 ≤ n && n ≤ 13) || n == 0x20 || n == 0x85 || n == 0xA0 || n == 0x1680 ||
    (0x2000 ≤ n && n ≤ 0x200A) || n == 0x2028 || n == 0x2029 || n == 0x202F || n == 0x205F ||
    n == 0x3000

/-- `s.trim().is_empty()`. -/
def isBlank (s : String) : Bool := s.toList.all isWhitespace

/-- `str::trim`. -/
def trim (s : String) : String :=
  .ofList ((s.toList.dropWhile isWhitespace).reverse.dropWhile isWhitespace).reverse

/-- `str::trim_end_matches`. -/
def trimEndMatches (s : String) (c : Char) : String :=
  .ofList (s.toList.reverse.dropWhile (· == c)).reverse

/-- The pieces between the characters that satisfy `sep`. -/
def splitList (sep : Char → Bool) : List Char → List (List Char)
  | [] => [[]]
  | c :: cs =>
    if sep c then [] :: splitList sep cs
    else
      match splitList sep cs with
      | piece :: pieces => (c :: piece) :: pieces
      | [] => [[c]]

/-- `str::split` at a character. -/
def split (s : String) (c : Char) : List String := (splitList (· == c) s.toList).map .ofList

/-- `str::split_whitespace`. -/
def splitWhitespace (s : String) : List String :=
  ((splitList isWhitespace s.toList).filter (· ≠ [])).map .ofList

/-- `str::strip_prefix`. -/
def stripPrefix (s part : String) : Option String :=
  if part.toList.isPrefixOf s.toList then some (.ofList (s.toList.drop part.toList.length)) else none

/-- `str::strip_suffix`. -/
def stripSuffix (s part : String) : Option String :=
  if part.toList.isSuffixOf s.toList then
    some (.ofList (s.toList.take (s.toList.length - part.toList.length)))
  else none

/-- `str::lines`: a line ends at a newline, with an optional carriage return before it, or at the
end of the text. -/
def lines (s : String) : List String :=
  let pieces := split s '\n'
  let last := (pieces.getLast?.filter (· ≠ "")).toList
  pieces.dropLast.map (fun line => (stripSuffix line "\r").getD line) ++ last

/-- `str::parse::<i64>`. -/
def parseI64 (s : String) : Option ℤ :=
  let (negative, digits) :=
    match s.toList with
    | '-' :: cs => (true, cs)
    | '+' :: cs => (false, cs)
    | cs => (false, cs)
  if digits = [] ∨ digits.any (fun c => !c.isDigit) then none
  else
    let n : ℤ := if negative then -(F64.digitsValue digits) else F64.digitsValue digits
    if -2 ^ 63 ≤ n ∧ n < 2 ^ 63 then some n else none

/-- `str::parse::<u64>`, which takes no minus sign. -/
def parseU64 (s : String) : Option UInt64 :=
  let digits :=
    match s.toList with
    | '+' :: cs => cs
    | cs => cs
  if digits = [] ∨ digits.any (fun c => !c.isDigit) then none
  else if F64.digitsValue digits < 2 ^ 64 then some (.ofNat (F64.digitsValue digits))
  else none

theorem splitList_of_forall {sep : Char → Bool} {cs : List Char} (h : ∀ c ∈ cs, sep c = false) :
    splitList sep cs = [cs] := by
  induction cs with
  | nil => rfl
  | cons c cs ih =>
    rw [List.forall_mem_cons] at h
    rw [splitList, h.1, ih h.2]
    rfl

/-- The first separator ends the first piece. -/
theorem splitList_append {sep : Char → Bool} {cs : List Char} (h : ∀ c ∈ cs, sep c = false)
    {stop : Char} (hstop : sep stop = true) (rest : List Char) :
    splitList sep (cs ++ stop :: rest) = cs :: splitList sep rest := by
  induction cs with
  | nil => rw [List.nil_append, splitList, if_pos hstop]
  | cons c cs ih =>
    rw [List.forall_mem_cons] at h
    rw [List.cons_append, splitList, h.1, ih h.2]
    rfl

theorem beq_of_notMem {cs : List Char} {c : Char} (h : c ∉ cs) : ∀ d ∈ cs, (d == c) = false := by
  intro d hd
  rw [beq_eq_false_iff_ne]
  rintro rfl
  exact h hd

theorem split_of_notMem {s : String} {c : Char} (h : c ∉ s.toList) : split s c = [s] := by
  rw [split, splitList_of_forall (beq_of_notMem h)]
  simp

theorem split_append {s : String} {c : Char} (h : c ∉ s.toList) (rest : String) :
    split (s ++ .singleton c ++ rest) c = s :: split rest c := by
  have htext : (s ++ .singleton c ++ rest).toList = s.toList ++ c :: rest.toList := by simp
  rw [split, split, htext, splitList_append (beq_of_notMem h) (beq_self_eq_true c)]
  simp

/-- `str::find` in a list of characters: what is before and after the first occurrence. -/
def findList (part : List Char) : List Char → Option (List Char × List Char)
  | [] => if part = [] then some ([], []) else none
  | c :: cs =>
    if part.isPrefixOf (c :: cs) then some ([], (c :: cs).drop part.length)
    else (findList part cs).map fun (before, after) => (c :: before, after)

/-- `findList` is a search in the sense of `Search.First`. -/
theorem first_of_findList {part before after : List Char} : ∀ {cs : List Char},
    findList part cs = some (before, after) → Search.First part cs before after
  | [], h => by
    rw [findList] at h
    split at h
    · rename_i hpart
      cases h
      exact ⟨by simp [hpart], fun _ _ _ => Nat.zero_le _⟩
    · cases h
  | c :: cs, h => by
    rw [findList] at h
    split at h
    · rename_i hpart
      cases h
      obtain ⟨after, hafter⟩ := List.isPrefixOf_iff_prefix.1 hpart
      exact ⟨by simp [← hafter], fun _ _ _ => Nat.zero_le _⟩
    · rename_i hpart
      obtain ⟨⟨before', after'⟩, hrest, heq⟩ := Option.map_eq_some_iff.1 h
      cases heq
      rw [List.isPrefixOf_iff_prefix] at hpart
      have hskips : Search.Skips part [c] cs := Search.skips_cons.2 ⟨hpart, Search.skips_nil⟩
      exact (first_of_findList hrest).skip hskips

theorem findList_eq_none {part : List Char} : ∀ {cs : List Char},
    findList part cs = none → ¬ part <:+: cs
  | [], h => by
    rw [findList] at h
    split at h
    · cases h
    · rename_i hpart
      rwa [List.infix_nil]
  | c :: cs, h => by
    rw [findList] at h
    split at h
    · cases h
    · rename_i hpart
      rw [List.infix_cons_iff, not_or]
      rw [List.isPrefixOf_iff_prefix] at hpart
      exact ⟨hpart, findList_eq_none (Option.map_eq_none_iff.1 h)⟩

theorem findList_eq_some_iff {part cs before after : List Char} :
    findList part cs = some (before, after) ↔ Search.First part cs before after := by
  refine ⟨first_of_findList, fun h => ?_⟩
  cases hfind : findList part cs with
  | none => exact absurd h.occurs (findList_eq_none hfind)
  | some found =>
    obtain ⟨hbefore, hafter⟩ := h.unique (first_of_findList hfind)
    rw [hbefore, hafter]

theorem findList_eq_none_iff {part cs : List Char} :
    findList part cs = none ↔ ¬ part <:+: cs := by
  refine ⟨findList_eq_none, fun h => ?_⟩
  cases hfind : findList part cs with
  | none => rfl
  | some found => exact absurd (first_of_findList hfind).occurs h

theorem findList_eq_some {part before after cs : List Char}
    (h : findList part cs = some (before, after)) : cs = before ++ part ++ after :=
  (first_of_findList h).split

theorem length_lt_of_findList {part before after cs : List Char} (hpart : part ≠ [])
    (h : findList part cs = some (before, after)) : after.length < cs.length := by
  have hpos : 0 < part.length := List.length_pos_iff.2 hpart
  rw [findList_eq_some h]
  simp only [List.length_append]
  omega

/-- `str::contains` of a text in a list of characters. -/
def containsList (part : List Char) : List Char → Bool
  | [] => part == []
  | c :: cs => part.isPrefixOf (c :: cs) || containsList part cs

/-- `str::contains` of a text. -/
def contains (s part : String) : Bool := containsList part.toList s.toList

end Text
end SystemReport
