import Mathlib.Algebra.Order.Field.Power
import Mathlib.Tactic.FieldSimp
import Mathlib.Tactic.Linarith
import Mathlib.Tactic.Positivity
import Mathlib.Tactic.Ring
import SystemReport.Lib.F64

/-!
# Rounding errors

How far a double is from the rational that it was rounded from.  Between the smallest normal number
and half the overflow threshold, rounding changes a positive number by at most one part in `2 ^ 53`
(`ofRat_near`); `Near` is that notion of closeness, and says how the errors of a chain of operations
add up.  `le_of_ofRat_lt` is about the doubles just below `2 ^ 64`.
-/

set_option autoImplicit false

namespace F64

theorem pow2_eq_zpow (k : ℤ) : pow2 k = (2 : ℚ) ^ k := by
  rw [pow2]
  split_ifs with hk
  · obtain ⟨n, rfl⟩ := Int.eq_ofNat_of_zero_le hk
    simp
  · obtain ⟨n, hn⟩ := Int.eq_ofNat_of_zero_le (show 0 ≤ -k by omega)
    rw [hn, show k = -(n : ℤ) by omega]
    simp

/-! ## Rounding to an integer -/

theorem abs_roundEven_sub_le (q : ℚ) : |(roundEven q : ℚ) - q| ≤ 1 / 2 := by
  have hlow : ((q.floor : ℤ) : ℚ) ≤ q := Int.floor_le q
  have hhigh : q < (q.floor : ℤ) + 1 := Int.lt_floor_add_one q
  rw [roundEven]
  split_ifs with h
  · rw [abs_le]
    constructor
    · rcases h with h | h <;> linarith
    · linarith
  · rw [not_or, not_lt] at h
    rw [abs_le]
    push_cast
    constructor <;> linarith [h.1]

/-- An integer less than a half away is the nearest one. -/
theorem roundEven_eq {q : ℚ} {n : ℤ} (h : |(n : ℚ) - q| < 1 / 2) : roundEven q = n := by
  have hround := abs_le.1 (abs_roundEven_sub_le q)
  have hn := abs_lt.1 h
  have hlow : (roundEven q : ℚ) < n + 1 := by linarith
  have hhigh : (n : ℚ) < roundEven q + 1 := by linarith
  have hlow' : roundEven q < n + 1 := by exact_mod_cast hlow
  have hhigh' : n < roundEven q + 1 := by exact_mod_cast hhigh
  omega

/-- Rounding does not cross an integer. -/
theorem le_roundEven {q : ℚ} {n : ℤ} (h : (n : ℚ) ≤ q) : n ≤ roundEven q := by
  have hround := abs_le.1 (abs_roundEven_sub_le q)
  have hhigh : (n : ℚ) < roundEven q + 1 := by linarith
  have hhigh' : n < roundEven q + 1 := by exact_mod_cast hhigh
  omega

theorem roundEven_le {q : ℚ} {n : ℤ} (h : q ≤ n) : roundEven q ≤ n := by
  have hround := abs_le.1 (abs_roundEven_sub_le q)
  have hlow : (roundEven q : ℚ) < n + 1 := by linarith
  have hlow' : roundEven q < n + 1 := by exact_mod_cast hlow
  omega

/-- Rounding to even goes past an odd integer from half way on. -/
theorem roundEven_le_of_odd {q : ℚ} {n : ℤ} (hn : n % 2 = 1) :
    roundEven q ≤ n ↔ q < n + 1 / 2 := by
  have hlow : ((q.floor : ℤ) : ℚ) ≤ q := Int.floor_le q
  have hhigh : q < (q.floor : ℤ) + 1 := Int.lt_floor_add_one q
  constructor
  · intro h
    by_contra hq
    rw [not_lt] at hq
    rcases le_or_gt ((n : ℚ) + 1) q with hfar | hnear
    · have hnext : n + 1 ≤ roundEven q := le_roundEven (by exact_mod_cast hfar)
      omega
    · have hn' : (n : ℚ) ≤ q := by linarith
      have hfloor : q.floor = n := Int.floor_eq_iff.2 ⟨hn', hnear⟩
      rw [roundEven, hfloor, if_neg] at h
      · omega
      · rintro (h' | ⟨-, heven⟩)
        · linarith
        · omega
  · intro h
    have hlt : q < ((n + 1 : ℤ) : ℚ) := by push_cast; linarith
    have hle : q.floor < n + 1 := Int.floor_lt.2 hlt
    rw [roundEven]
    rcases (Int.lt_add_one_iff.1 hle).lt_or_eq with hlt | hfloor
    · split_ifs <;> omega
    · rw [if_pos (.inl (by rw [hfloor]; linarith)), hfloor]

/-! ## The exponent -/

/-- The estimate from the sizes of numerator and denominator is at most one too large. -/
theorem log2_estimate {q : ℚ} (hq : 0 < q) :
    (2 : ℚ) ^ ((Nat.log2 q.num.natAbs : ℤ) - Nat.log2 q.den - 1) ≤ q ∧
      q < 2 ^ ((Nat.log2 q.num.natAbs : ℤ) - Nat.log2 q.den + 1) := by
  have hnum : 0 < q.num := Rat.num_pos.2 hq
  have hn : q.num.natAbs ≠ 0 := by omega
  have hvalue : q = (q.num.natAbs : ℚ) / q.den := by
    rw [Nat.cast_natAbs, abs_of_pos hnum]
    exact (Rat.num_div_den q).symm
  have hd : (0 : ℚ) < q.den := by exact_mod_cast q.den_pos
  have hnlow : (2 : ℚ) ^ Nat.log2 q.num.natAbs ≤ q.num.natAbs := by
    exact_mod_cast Nat.log2_self_le hn
  have hnhigh : (q.num.natAbs : ℚ) < 2 ^ (Nat.log2 q.num.natAbs + 1) := by
    exact_mod_cast Nat.lt_log2_self
  have hdlow : (2 : ℚ) ^ Nat.log2 q.den ≤ q.den := by
    exact_mod_cast Nat.log2_self_le q.den_nz
  have hdhigh : (q.den : ℚ) < 2 ^ (Nat.log2 q.den + 1) := by
    exact_mod_cast Nat.lt_log2_self
  generalize Nat.log2 q.num.natAbs = a at hnlow hnhigh ⊢
  generalize Nat.log2 q.den = b at hdlow hdhigh ⊢
  have hlow : (2 : ℚ) ^ ((a : ℤ) - b - 1) = 2 ^ a / 2 ^ (b + 1) := by
    rw [show (a : ℤ) - b - 1 = (a : ℤ) - ((b + 1 : ℕ) : ℤ) by push_cast; ring,
      zpow_sub₀ (by norm_num), zpow_natCast, zpow_natCast]
  have hhigh : (2 : ℚ) ^ ((a : ℤ) - b + 1) = 2 ^ (a + 1) / 2 ^ b := by
    rw [show (a : ℤ) - b + 1 = ((a + 1 : ℕ) : ℤ) - (b : ℤ) by push_cast; ring,
      zpow_sub₀ (by norm_num), zpow_natCast, zpow_natCast]
  rw [hlow, hhigh]
  constructor
  · rw [hvalue]
    exact div_le_div₀ (by positivity) hnlow hd hdhigh.le
  · rw [hvalue]
    exact div_lt_div₀ hnhigh hdlow (by positivity) (by positivity)

/-- `log2` is the exponent of the largest power of two that is not larger. -/
theorem log2_spec {q : ℚ} (hq : 0 < q) : (2 : ℚ) ^ log2 q ≤ q ∧ q < 2 ^ (log2 q + 1) := by
  obtain ⟨hlow, hhigh⟩ := log2_estimate hq
  rw [log2]
  simp only [pow2_eq_zpow]
  split_ifs with h
  · exact ⟨h, hhigh⟩
  · rw [not_le] at h
    exact ⟨hlow, by rwa [sub_add_cancel]⟩

/-! ## Closeness -/

/-- `r` is within the fraction `ε` of `q`. -/
def Near (ε q r : ℚ) : Prop := |r - q| ≤ ε * q

theorem Near.trans {ε δ q r s : ℚ} (hδ : 0 ≤ δ) (h : Near ε q r)
    (h' : Near δ r s) : Near (ε + δ + ε * δ) q s := by
  have hr : r ≤ q + ε * q := by linarith [(abs_le.1 h).2]
  have hprod : δ * r ≤ δ * (q + ε * q) := mul_le_mul_of_nonneg_left hr hδ
  calc |s - q| = |(s - r) + (r - q)| := by ring_nf
    _ ≤ |s - r| + |r - q| := abs_add_le _ _
    _ ≤ δ * r + ε * q := add_le_add h' h
    _ ≤ (ε + δ + ε * δ) * q := by linarith

theorem Near.div {ε q r c : ℚ} (h : Near ε q r) (hc : 0 < c) : Near ε (q / c) (r / c) := by
  rw [Near, ← sub_div, abs_div, abs_of_pos hc, ← mul_div_assoc]
  exact div_le_div_of_nonneg_right h hc.le

theorem Near.mono {ε δ q r : ℚ} (h : Near ε q r) (hq : 0 ≤ q) (hεδ : ε ≤ δ) : Near δ q r :=
  le_trans h (mul_le_mul_of_nonneg_right hεδ hq)

theorem Near.pos {ε q r : ℚ} (h : Near ε q r) (hq : 0 < q) (hε : ε < 1) : 0 < r := by
  have hlow := (abs_le.1 h).1
  have hprod : ε * q < 1 * q := mul_lt_mul_of_pos_right hε hq
  linarith

/-- Rounding to a multiple of a unit changes a number by at most half a unit. -/
theorem abs_roundEven_mul_sub_le (q : ℚ) {unit : ℚ} (hunit : 0 < unit) :
    |(roundEven (q / unit) : ℚ) * unit - q| ≤ unit / 2 := by
  have hscale : (roundEven (q / unit) : ℚ) * unit - q =
      ((roundEven (q / unit) : ℚ) - q / unit) * unit := by
    field_simp
  rw [hscale, abs_mul, abs_of_pos hunit]
  have hround := abs_roundEven_sub_le (q / unit)
  calc |(roundEven (q / unit) : ℚ) - q / unit| * unit ≤ 1 / 2 * unit :=
        mul_le_mul_of_nonneg_right hround hunit.le
    _ = unit / 2 := by ring

/-- **Rounding a number of ordinary size** changes it by at most one part in `2 ^ 53`. -/
theorem ofRat_near {q : ℚ} (hlow : (2 : ℚ) ^ (-1022 : ℤ) ≤ q) (hhigh : q < 2 ^ (1023 : ℤ)) :
    ∃ r, ofRat q = .finite r ∧ Near (1 / 2 ^ 53) q r := by
  have hq : 0 < q := lt_of_lt_of_le (by positivity) hlow
  obtain ⟨hexp, hexp'⟩ := log2_spec hq
  have hnormal : -1022 < log2 q + 1 :=
    (zpow_lt_zpow_iff_right₀ (by norm_num : (1 : ℚ) < 2)).1 (lt_of_le_of_lt hlow hexp')
  have hmax : max (log2 q - 52) (-1074) = log2 q - 52 := max_eq_left (by omega)
  have hunit : pow2 (log2 q - 52) = 2 ^ log2 q / 2 ^ 52 := by
    rw [pow2_eq_zpow, zpow_sub₀ (by norm_num)]
    rfl
  have hunit_pos : (0 : ℚ) < 2 ^ log2 q / 2 ^ 52 := by positivity
  have herror := abs_roundEven_mul_sub_le q hunit_pos
  have hhalf : (2 : ℚ) ^ log2 q / 2 ^ 52 / 2 ≤ 1 / 2 ^ 53 * q := by
    linarith
  have hnear : Near (1 / 2 ^ 53) q (roundEven (q / (2 ^ log2 q / 2 ^ 52)) * (2 ^ log2 q / 2 ^ 52)) :=
    herror.trans hhalf
  have hpos := hnear.pos hq (by norm_num)
  have hdouble : pow2 1024 = 2 ^ (1023 : ℤ) * 2 := by
    rw [pow2_eq_zpow, ← zpow_add_one₀ (by norm_num)]
    rfl
  have hfinite : ¬ pow2 1024 ≤
      |(roundEven (q / (2 ^ log2 q / 2 ^ 52)) : ℚ) * (2 ^ log2 q / 2 ^ 52)| := by
    have hbound := (abs_le.1 hnear).2
    rw [abs_of_pos hpos, hdouble, not_le]
    generalize (2 : ℚ) ^ (1023 : ℤ) = half at hhigh
    linarith
  refine ⟨_, ?_, hnear⟩
  rw [ofRat, if_neg hq.ne', abs_of_pos hq, hmax, hunit]
  exact if_neg hfinite

/-- Numbers with a magnitude of at most 64 bits are of ordinary size. -/
theorem ordinary {q : ℚ} (hlow : 1 / 2 ^ 64 ≤ q) (hhigh : q ≤ 2 ^ 65) :
    (2 : ℚ) ^ (-1022 : ℤ) ≤ q ∧ q < 2 ^ (1023 : ℤ) := by
  have hsmall : (2 : ℚ) ^ (-1022 : ℤ) ≤ 2 ^ (-64 : ℤ) :=
    zpow_le_zpow_right₀ (by norm_num) (by norm_num)
  have hlarge : (2 : ℚ) ^ (65 : ℤ) < 2 ^ (1023 : ℤ) :=
    zpow_lt_zpow_right₀ (by norm_num) (by norm_num)
  have hsmall' : (2 : ℚ) ^ (-64 : ℤ) = 1 / 2 ^ 64 := by rw [zpow_neg, one_div]; rfl
  exact ⟨(hsmall.trans_eq hsmall').trans hlow, lt_of_le_of_lt hhigh hlarge⟩

/-- Rounding such a number. -/
theorem ofRat_near_ordinary {q : ℚ} (hlow : 1 / 2 ^ 64 ≤ q) (hhigh : q ≤ 2 ^ 65) :
    ∃ r, ofRat q = .finite r ∧ Near (1 / 2 ^ 53) q r :=
  ofRat_near (ordinary hlow hhigh).1 (ordinary hlow hhigh).2

/-- A quotient of this size adds one rounding to the error of its dividend. -/
theorem divPos_near {ε a q c : ℚ} (h : Near ε q a) (hc : 0 < c) (hlow : 1 / 2 ^ 64 ≤ a / c)
    (hhigh : a / c ≤ 2 ^ 65) :
    ∃ r, (F64.finite a).divPos c = .finite r ∧
      Near (ε + 1 / 2 ^ 53 + ε * (1 / 2 ^ 53)) (q / c) r := by
  obtain ⟨r, hr, hnear⟩ := ofRat_near_ordinary hlow hhigh
  exact ⟨r, hr, (h.div hc).trans (by norm_num) hnear⟩

/-! ## Gaps -/

/-- There is no double between `2 ^ 64 - 2 ^ 11` and `2 ^ 64`. -/
theorem le_of_ofRat_lt {r q : ℚ} (h : ofRat r = .finite q) (hq : q < 2 ^ 64) :
    q ≤ 2 ^ 64 - 2 ^ 11 := by
  rw [ofRat] at h
  split at h
  · cases h
    norm_num
  rename_i h0
  dsimp only at h
  split at h
  · cases h
  cases h
  rw [pow2_eq_zpow] at hq ⊢
  generalize he : max (log2 |r| - 52) (-1074) = e at hq ⊢
  have hunit : (0 : ℚ) < 2 ^ e := by positivity
  rcases le_or_gt 11 e with hlarge | hsmall
  · -- a multiple of `2 ^ 11`
    obtain ⟨m, rfl⟩ : ∃ m : ℕ, e = m + 11 := ⟨(e - 11).toNat, by omega⟩
    have hsplit : (2 : ℚ) ^ ((m : ℤ) + 11) = 2 ^ m * 2 ^ 11 := by
      rw [zpow_add₀ (by norm_num), zpow_natCast]
      rfl
    rw [hsplit] at hq ⊢
    generalize roundEven (r / (2 ^ m * 2 ^ 11)) = k at hq ⊢
    have hk : (k * 2 ^ m : ℚ) < 2 ^ 53 := by linarith
    have hk' : k * 2 ^ m < (2 : ℤ) ^ 53 := by exact_mod_cast hk
    have hk'' : (k * 2 ^ m : ℚ) ≤ 2 ^ 53 - 1 := by
      exact_mod_cast Int.le_sub_one_of_lt hk'
    linarith
  · -- the number was less than `2 ^ 63` before it was rounded
    obtain ⟨-, hexp⟩ := log2_spec (abs_pos.2 h0)
    have hmax : log2 |r| - 52 ≤ e := he ▸ le_max_left _ _
    have hr : r ≤ 2 ^ (63 : ℤ) :=
      (le_abs_self r).trans (hexp.le.trans (zpow_le_zpow_right₀ (by norm_num) (by omega)))
    obtain ⟨m, hm⟩ : ∃ m : ℕ, 63 = (m : ℤ) + e := ⟨(63 - e).toNat, by omega⟩
    have hsplit : (2 : ℚ) ^ (63 : ℤ) = 2 ^ m * 2 ^ e := by
      rw [hm, zpow_add₀ (by norm_num), zpow_natCast]
    have hround : roundEven (r / 2 ^ e) ≤ (2 ^ m : ℤ) := by
      refine roundEven_le ?_
      rw [div_le_iff₀ hunit]
      push_cast
      linarith
    have hround' : (roundEven (r / 2 ^ e) : ℚ) ≤ 2 ^ m := by exact_mod_cast hround
    have hprod := mul_le_mul_of_nonneg_right hround' hunit.le
    rw [← hsplit] at hprod
    exact hprod.trans (by norm_num)

end F64
