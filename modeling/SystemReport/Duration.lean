import Mathlib.Order.Basic
import Mathlib.Order.Lattice
import Mathlib.Order.Nat
import Mathlib.Data.UInt
import SystemReport.Lib.F64

/-!
# Durations

`std::time::Duration`: a `u64` number of seconds and a number of nanoseconds below a second.  The
value is kept as one number of nanoseconds, together with the proof that it is at most
`Duration::MAX`; the saturating operations are the only arithmetic the program does with durations,
so none of it can fail.
-/

set_option autoImplicit false

namespace SystemReport

/-- The nanoseconds of `Duration::MAX`: `u64::MAX` seconds and 999 999 999 nanoseconds. -/
def maxNanos : ℕ := 18446744073709551615 * 1000000000 + 999999999

/-- A duration, in nanoseconds. -/
structure Duration where
  nanos : ℕ
  le_max : nanos ≤ maxNanos
deriving DecidableEq, Repr

namespace Duration

@[ext] theorem ext {a b : Duration} (h : a.nanos = b.nanos) : a = b := by
  cases a; cases b; cases h; rfl

instance : LinearOrder Duration :=
  LinearOrder.lift' Duration.nanos fun _ _ => Duration.ext

theorem le_def {a b : Duration} : a ≤ b ↔ a.nanos ≤ b.nanos := Iff.rfl

/-- `Duration::ZERO`. -/
def zero : Duration := ⟨0, Nat.zero_le _⟩

/-- `Duration::from_secs`. -/
def fromSecs (secs : UInt64) : Duration :=
  ⟨secs.toNat * 1000000000, by have := secs.toNat_lt; rw [maxNanos]; omega⟩

/-- `Duration::saturating_add`. -/
def saturatingAdd (a b : Duration) : Duration :=
  ⟨min (a.nanos + b.nanos) maxNanos, Nat.min_le_right _ _⟩

/-- `Duration::saturating_sub`. -/
def saturatingSub (a b : Duration) : Duration :=
  ⟨a.nanos - b.nanos, (Nat.sub_le _ _).trans a.le_max⟩

/-- `Duration::saturating_mul`. -/
def saturatingMul (a : Duration) (n : ℕ) : Duration :=
  ⟨min (a.nanos * n) maxNanos, Nat.min_le_right _ _⟩

/-- `Duration::try_from_secs_f64`: to the nearest nanosecond, if that is a duration. -/
def tryFromSecsF64 : F64 → Option Duration
  | .finite secs =>
    let nanos := F64.roundEven (secs * 1000000000)
    if h : 0 ≤ secs ∧ nanos.toNat ≤ maxNanos then some ⟨nanos.toNat, h.2⟩ else none
  | _ => none

/-- `Duration::is_zero`. -/
def isZero (a : Duration) : Bool := a.nanos == 0

@[simp] theorem nanos_saturatingAdd (a b : Duration) :
    (a.saturatingAdd b).nanos = min (a.nanos + b.nanos) maxNanos := rfl

@[simp] theorem nanos_saturatingSub (a b : Duration) :
    (a.saturatingSub b).nanos = a.nanos - b.nanos := rfl

@[simp] theorem nanos_saturatingMul (a : Duration) (n : ℕ) :
    (a.saturatingMul n).nanos = min (a.nanos * n) maxNanos := rfl

@[simp] theorem nanos_min (a b : Duration) : (min a b).nanos = min a.nanos b.nanos := by
  rcases le_total a b with h | h
  · rw [min_eq_left h, min_eq_left (le_def.1 h)]
  · rw [min_eq_right h, min_eq_right (le_def.1 h)]

@[simp] theorem isZero_iff (a : Duration) : a.isZero = true ↔ a.nanos = 0 := by
  simp [isZero]

theorem isZero_saturatingSub (a b : Duration) : (a.saturatingSub b).isZero = true ↔ a ≤ b := by
  rw [isZero_iff, nanos_saturatingSub, le_def]
  omega

end Duration
end SystemReport
