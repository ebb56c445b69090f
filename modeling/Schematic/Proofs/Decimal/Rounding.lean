import Mathlib.Algebra.Order.Field.Power
import Mathlib.Tactic.NormNum
import Schematic.Proofs.Decimal.Value
import Schematic.Proofs.Double.Nearest

namespace Schematic.Decimal

open Double (unitsPerOne unitsPerOne_pos)

/-- The exact value. -/
def value (d : Decimal) : ℚ :=
  d.coefficient * 10 ^ d.exponent

theorem value_nonneg (d : Decimal) : 0 ≤ d.value := by
  unfold value
  positivity

theorem valueOf_digits (n : Nat) : valueOf (digits n) = n :=
  Nat.ofDigitChars_toDigits (by decide) (by decide)

theorem lt_pow_length_digits (n : Nat) : n < 10 ^ (digits n).length :=
  (Nat.length_toDigits_le_iff (by decide) Nat.length_toDigits_pos).mp le_rfl

theorem pow_length_digits_le {n : Nat} (hn : n ≠ 0) : 10 ^ ((digits n).length - 1) ≤ n := by
  by_contra hless
  rcases Nat.eq_zero_or_pos ((digits n).length - 1) with hone | hmore
  · rw [hone] at hless
    omega
  · have hlength := (Nat.length_toDigits_le_iff (by decide) hmore).mpr (not_le.mp hless)
    unfold digits at hmore hlength
    omega

theorem ten_zpow (k : ℤ) : (10 : ℚ) ^ k = 10 ^ k.toNat / 10 ^ (-k).toNat := by
  rcases Int.le_total 0 k with hk | hk
  · obtain ⟨n, rfl⟩ := Int.eq_ofNat_of_zero_le hk
    simp
  · obtain ⟨n, rfl⟩ := Int.exists_eq_neg_ofNat hk
    simp

/-- The exponent of the leading digit gives the size. -/
theorem value_bounds {d : Decimal} (hd : d.coefficient ≠ 0) :
    10 ^ d.magnitude ≤ d.value ∧ d.value < 10 ^ (d.magnitude + 1) := by
  have hpow : (0 : ℚ) < 10 ^ d.exponent := by positivity
  have hlength : 0 < (digits d.coefficient).length := Nat.length_toDigits_pos
  have hlow : d.magnitude = ((digits d.coefficient).length - 1 : Nat) + d.exponent := by
    unfold magnitude
    omega
  have hhigh : d.magnitude + 1 = (digits d.coefficient).length + d.exponent := by
    unfold magnitude
    omega
  rw [hhigh, hlow, zpow_add₀ (by norm_num), zpow_add₀ (by norm_num), zpow_natCast, zpow_natCast,
    value]
  constructor
  · gcongr
    exact_mod_cast pow_length_digits_le hd
  · gcongr
    exact_mod_cast lt_pow_length_digits _

private theorem value_eq_div (d : Decimal) :
    d.value = (d.coefficient * Nat.pow 10 d.exponent.toNat : Nat) /
      (Nat.pow 10 (-d.exponent).toNat : Nat) := by
  rw [value, ten_zpow, mul_div_assoc', Nat.pow_eq, Nat.pow_eq]
  push_cast
  rfl

private theorem two_pow_le_ten_zpow {e n : Nat} (hpow : 2 ^ e ≤ 10 ^ n) :
    (2 : ℚ) ^ e ≤ 10 ^ (n : ℤ) := by
  rw [zpow_natCast]
  exact_mod_cast hpow

/-- No number reaches `10^309`. -/
theorem overflow_le : Double.overflow ≤ 10 ^ (309 : ℤ) :=
  two_pow_le_ten_zpow (n := 309) (by decide +kernel)

/-- Less than `10^-324` is at most half of the least positive number. -/
theorem ten_zpow_mul_unitsPerOne_le : (10 : ℚ) ^ (-324 : ℤ) * unitsPerOne ≤ 1 / 2 := by
  have hpow : (2 : ℚ) ^ (1074 + 1) ≤ 10 ^ (324 : ℤ) :=
    two_pow_le_ten_zpow (n := 324) (by decide +kernel)
  rw [pow_succ] at hpow
  rw [Double.unitsPerOne_eq, Nat.cast_pow, Nat.cast_ofNat, zpow_neg, ← div_eq_inv_mul,
    div_le_div_iff₀ (by positivity) two_pos, one_mul]
  exact hpow

/-- Reading a decimal is correctly rounded. -/
theorem toDouble?_eq_some_iff {negative : Bool} {d : Decimal} {x : Double} :
    d.toDouble? negative = some x ↔ x.Rounds negative d.value := by
  have hnonneg := d.value_nonneg
  have hzero : d.value * unitsPerOne ≤ 1 / 2 →
      (some (Double.zero negative) = some x ↔ x.Rounds negative d.value) := by
    intro hhalf
    have hrounds := Double.rounds_zero negative hnonneg hhalf
    rw [Option.some.injEq]
    constructor
    · rintro rfl
      exact hrounds
    · intro hx
      exact hrounds.eq hx hnonneg
  unfold toDouble?
  split
  · next hd =>
    apply hzero
    rw [value, hd, Nat.cast_zero, zero_mul, zero_mul]
    norm_num
  · next hd =>
    obtain ⟨hlow, hhigh⟩ := value_bounds hd
    split
    · next hlarge =>
      refine ⟨fun hx => absurd hx (by simp), fun hx => ?_⟩
      have hpow : (10 : ℚ) ^ (309 : ℤ) ≤ 10 ^ d.magnitude :=
        zpow_le_zpow_right₀ (by norm_num) hlarge
      exact absurd hx.lt_overflow (not_lt.mpr (overflow_le.trans (hpow.trans hlow)))
    · split
      · next hsmall =>
        apply hzero
        have hpow : (10 : ℚ) ^ (d.magnitude + 1) ≤ 10 ^ (-324 : ℤ) :=
          zpow_le_zpow_right₀ (by norm_num) (by omega)
        have hscaled := mul_le_mul_of_nonneg_right (hhigh.le.trans hpow) unitsPerOne_pos.le
        exact hscaled.trans ten_zpow_mul_unitsPerOne_le
      · have hden : 0 < Nat.pow 10 (-d.exponent).toNat := Nat.pow_pos (by decide)
        rw [Double.ofRatio?_eq_some_iff hden, ← value_eq_div]

end Schematic.Decimal
