import Mathlib.Algebra.Order.Field.Rat
import Mathlib.Data.Rat.Floor
import Mathlib.Order.Basic

/-!
# Double-precision numbers

IEEE 754 `binary64` as the exact rational it stands for, with the two infinities and one NaN.
`F64.ofRat` rounds to the nearest double, ties to even; every operation is the exact one on
rationals followed by this rounding.  The two zeros are one value here, as they compare equal.
-/

set_option autoImplicit false

/-- A double-precision number. -/
inductive F64
  | nan
  | inf (negative : Bool)
  | finite (q : ℚ)
deriving DecidableEq, Repr

namespace F64

/-- `2 ^ k` for an integer exponent. -/
def pow2 (k : ℤ) : ℚ := if 0 ≤ k then ((2 ^ k.toNat : ℕ) : ℚ) else 1 / ((2 ^ (-k).toNat : ℕ) : ℚ)

/-- The largest `k` with `2 ^ k ≤ q`, for a positive `q`. -/
def log2 (q : ℚ) : ℤ :=
  let k : ℤ := (Nat.log2 q.num.natAbs : ℤ) - (Nat.log2 q.den : ℤ)
  if pow2 k ≤ q then k else k - 1

/-- The nearest integer, and the even one of two that are equally near. -/
def roundEven (q : ℚ) : ℤ :=
  let low := q.floor
  let rest := q - low
  if rest < 1 / 2 ∨ (rest = 1 / 2 ∧ low % 2 = 0) then low else low + 1

/-- The nearest double: 53 significant bits, a least exponent of -1074, and an infinity from
`2 ^ 1024` on. -/
def ofRat (q : ℚ) : F64 :=
  if q = 0 then .finite 0
  else
    let unit := pow2 (max (log2 |q| - 52) (-1074))
    let rounded : ℚ := roundEven (q / unit) * unit
    if pow2 1024 ≤ |rounded| then .inf (decide (q < 0)) else .finite rounded

/-- `f64::is_finite`. -/
def isFinite : F64 → Bool
  | .finite _ => true
  | _ => false

/-- `<=` of two doubles; a NaN compares with nothing. -/
def le : F64 → F64 → Bool
  | .finite a, .finite b => decide (a ≤ b)
  | .finite _, .inf negative => !negative
  | .inf negative, .finite _ => negative
  | .inf a, .inf b => a || !b
  | _, _ => false

/-- `<` of two doubles. -/
def lt (a b : F64) : Bool := a.le b && !b.le a

/-- The quotient of a double by a positive finite one. -/
def divPos : F64 → ℚ → F64
  | .finite a, b => ofRat (a / b)
  | a, _ => a

/-- `as u64`: towards zero, saturating, with NaN as 0. -/
def toU64 : F64 → ℕ
  | .finite q => if q < 0 then 0 else min q.floor.toNat (2 ^ 64 - 1)
  | .inf false => 2 ^ 64 - 1
  | _ => 0

/-! ## Reading a number -/

/-- The digits at the front of a text, and what follows them. -/
def digits : List Char → List Char × List Char
  | c :: cs => if c.isDigit then (c :: (digits cs).1, (digits cs).2) else ([], c :: cs)
  | [] => ([], [])

/-- The value of a list of decimal digits. -/
def digitsValue (ds : List Char) : ℕ := ds.foldl (fun n d => 10 * n + (d.toNat - '0'.toNat)) 0

/-- The exponent of a number: `e` or `E`, an optional sign, and at least one digit, up to the end
of the text. -/
def exponent : List Char → Option ℤ
  | [] => some 0
  | e :: cs =>
    if e = 'e' ∨ e = 'E' then
      let (negative, cs) :=
        match cs with
        | '-' :: cs => (true, cs)
        | '+' :: cs => (false, cs)
        | cs => (false, cs)
      match digits cs with
      | ([], _) => none
      | (ds, []) => some (if negative then -(digitsValue ds : ℤ) else digitsValue ds)
      | _ => none
    else none

/-- A number without its sign: digits with an optional point among them, at least one of them, and
an optional exponent. -/
def unsigned (cs : List Char) : Option ℚ :=
  let (whole, rest) := digits cs
  let (frac, rest) :=
    match rest with
    | '.' :: rest => digits rest
    | rest => ([], rest)
  if whole ++ frac = [] then none
  else
    (exponent rest).map fun e =>
      let e : ℤ := e - frac.length
      let n : ℚ := digitsValue (whole ++ frac)
      if 0 ≤ e then n * (10 ^ e.toNat : ℕ) else n / (10 ^ (-e).toNat : ℕ)

/-- `str::parse::<f64>`: `inf`, `infinity` and `nan` in any case, or a decimal number, with an
optional sign. -/
def parse (text : String) : Option F64 :=
  let (negative, cs) :=
    match text.toList with
    | '-' :: cs => (true, cs)
    | '+' :: cs => (false, cs)
    | cs => (false, cs)
  let lower := String.ofList (cs.map Char.toLower)
  if lower = "nan" then some .nan
  else if lower = "inf" ∨ lower = "infinity" then some (.inf negative)
  else (unsigned cs).map fun q => ofRat (if negative then -q else q)

end F64
