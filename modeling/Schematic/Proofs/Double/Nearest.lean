import Mathlib.Tactic.GCongr
import Schematic.Proofs.Double.Rounding

namespace Schematic.Double

theorem unitsPerOne_eq : unitsPerOne = 2 ^ 1074 := by
  unfold unitsPerOne
  generalize 1074 = n
  rfl

theorem unitsPerOne_pos : (0 : ℚ) < unitsPerOne := by
  rw [unitsPerOne_eq]
  positivity

/-- The magnitude. -/
def absolute (x : Double) : ℚ :=
  x.units / unitsPerOne

/-- What would be the next number after the largest one. -/
def overflow : ℚ :=
  2 ^ 1024

/-- Correct rounding of a magnitude: the number has the given sign, no number is nearer, and where
another one is as near the significand is even. A magnitude that is as near to the overflow rounds
to no number. -/
structure Rounds (negative : Bool) (q : ℚ) (x : Double) : Prop where
  sign : x.negative = negative
  nearest : ∀ y : Double, |x.absolute - q| ≤ |y.absolute - q|
  even : ∀ y : Double, |x.absolute - q| = |y.absolute - q| → y.absolute ≠ x.absolute →
    x.significand % 2 = 0
  bounded : |x.absolute - q| < |overflow - q|

theorem units_eq (x : Double) : (x.units : ℚ) = x.significand * 2 ^ x.exponent := by
  rw [units, show Nat.pow 2 x.exponent = 2 ^ x.exponent from rfl]
  push_cast
  rfl

/-- At an exponent that is no less, a magnitude is a multiple of a unit of the last place. -/
theorem exists_units_eq_mul {e : Nat} {y : Double} (hexp : e ≤ y.exponent) :
    ∃ k, y.units = k * 2 ^ e := by
  refine ⟨y.significand * 2 ^ (y.exponent - e), ?_⟩
  rw [mul_assoc, ← pow_add, Nat.sub_add_cancel hexp]
  rfl

/-- At a lower exponent a magnitude is below the least one of the exponent. -/
theorem two_mul_units_add_le {e : Nat} {y : Double} (hexp : y.exponent < e) :
    2 * y.units + 2 ^ e ≤ 0x20000000000000 * 2 ^ e := by
  have hpow : 2 ^ (y.exponent + 1) ≤ 2 ^ e := Nat.pow_le_pow_right two_pos hexp
  calc 2 * y.units + 2 ^ e = y.significand * 2 ^ (y.exponent + 1) + 2 ^ e := by
        rw [units, pow_succ, show Nat.pow 2 y.exponent = 2 ^ y.exponent from rfl]
        ring
    _ ≤ y.significand * 2 ^ e + 2 ^ e := by gcongr
    _ = (y.significand + 1) * 2 ^ e := by ring
    _ ≤ 0x20000000000000 * 2 ^ e := Nat.mul_le_mul_right _ y.significand_lt

theorem units_eq_mul (x : Double) : x.units = x.significand * 2 ^ x.exponent :=
  rfl

/-- A number that is greater is greater by a unit of the last place at least. -/
theorem units_add_le {x y : Double} (hless : x.units < y.units) :
    x.units + 2 ^ x.exponent ≤ y.units := by
  have hpow : 0 < 2 ^ x.exponent := Nat.pow_pos two_pos
  rcases Nat.lt_or_ge y.exponent x.exponent with hexp | hexp
  · have hy := two_mul_units_add_le hexp
    have hx : 0x10000000000000 * 2 ^ x.exponent ≤ x.units :=
      Nat.mul_le_mul_right _ (x.normal.resolve_left (by omega))
    omega
  · obtain ⟨k, hk⟩ := exists_units_eq_mul hexp
    rw [hk, units_eq_mul] at hless ⊢
    have hlt : x.significand < k := Nat.lt_of_mul_lt_mul_right hless
    calc x.significand * 2 ^ x.exponent + 2 ^ x.exponent
        = (x.significand + 1) * 2 ^ x.exponent := by ring
      _ ≤ k * 2 ^ x.exponent := Nat.mul_le_mul_right _ hlt

/-- A number that is less is less by the distance to the lower neighbour at least. -/
theorem units_add_below_le {x y : Double} (hless : y.units < x.units) :
    2 * y.units + x.below * 2 ^ x.exponent ≤ 2 * x.units := by
  have hpow : 0 < 2 ^ x.exponent := Nat.pow_pos two_pos
  rcases Nat.lt_or_ge y.exponent x.exponent with hexp | hexp
  · have hy := two_mul_units_add_le hexp
    rcases x.below_cases with ⟨hbelow, hsignificand, -⟩ | ⟨hbelow, hnormal⟩
    · rw [hbelow, units_eq_mul x, hsignificand]
      omega
    · have hx : 0x10000000000001 * 2 ^ x.exponent ≤ x.units :=
        Nat.mul_le_mul_right _ (hnormal.resolve_left (by omega))
      rw [hbelow]
      omega
  · obtain ⟨k, hk⟩ := exists_units_eq_mul hexp
    rw [hk, units_eq_mul] at hless ⊢
    have hlt : k + 1 ≤ x.significand := Nat.lt_of_mul_lt_mul_right hless
    have hmul := Nat.mul_le_mul_right (2 ^ x.exponent) hlt
    rw [Nat.add_mul] at hmul
    rcases x.below_cases with ⟨hbelow, -⟩ | ⟨hbelow, -⟩ <;> rw [hbelow] <;> omega

private theorem overflow_eq : overflow * unitsPerOne = 2 ^ 53 * 2 ^ 2045 := by
  rw [overflow, unitsPerOne_eq, Nat.cast_pow, Nat.cast_ofNat, ← pow_add, ← pow_add]

/-- Every number has an upper neighbour, but for the largest one. -/
theorem exists_next (x : Double) :
    (∃ y : Double, y.units = x.units + 2 ^ x.exponent) ∨
      (x.units : ℚ) + 2 ^ x.exponent = overflow * unitsPerOne ∧ x.significand % 2 = 1 := by
  have hnormal := x.normal
  have hsum : x.units + 2 ^ x.exponent = (x.significand + 1) * 2 ^ x.exponent := by
    rw [units_eq_mul]
    ring
  rcases Nat.lt_or_ge (x.significand + 1) 0x20000000000000 with hlt | hge
  · exact .inl ⟨⟨x.negative, x.significand + 1, x.exponent, hlt, x.exponent_le, by omega⟩,
      hsum.symm⟩
  · have hlargest : x.significand + 1 = 2 * 0x10000000000000 := by
      have := x.significand_lt
      omega
    rcases Nat.lt_or_ge x.exponent 2045 with hexp | hexp
    · refine .inl ⟨⟨x.negative, 0x10000000000000, x.exponent + 1, by omega, hexp, .inr le_rfl⟩, ?_⟩
      rw [hsum, units_eq_mul, hlargest, pow_succ]
      ring
    · refine .inr ⟨?_, by omega⟩
      have hexponent : x.exponent = 2045 := by
        have := x.exponent_le
        omega
      have hunits : (x.units : ℚ) + 2 ^ x.exponent = 2 * 0x10000000000000 * 2 ^ x.exponent := by
        exact_mod_cast hsum.trans (congrArg (· * 2 ^ x.exponent) hlargest)
      rw [hunits, hexponent, overflow_eq]
      norm_num

/-- Every number but zero has a lower neighbour. -/
theorem exists_previous {x : Double} (hx : x.significand ≠ 0) :
    ∃ y : Double, 2 * y.units + x.below * 2 ^ x.exponent = 2 * x.units := by
  have hlt := x.significand_lt
  rcases x.below_cases with ⟨hbelow, hsignificand, hexponent⟩ | ⟨hbelow, hnormal⟩
  · obtain ⟨e, he⟩ : ∃ e, x.exponent = e + 1 := ⟨x.exponent - 1, by omega⟩
    have hle := x.exponent_le
    refine ⟨⟨x.negative, 0x1fffffffffffff, e, by omega, by omega, .inr (by omega)⟩, ?_⟩
    rw [hbelow, units_eq_mul, units_eq_mul, hsignificand, he, pow_succ]
    ring
  · obtain ⟨m, hm⟩ : ∃ m, x.significand = m + 1 := ⟨x.significand - 1, by omega⟩
    refine ⟨⟨x.negative, m, x.exponent, by omega, x.exponent_le, by omega⟩, ?_⟩
    rw [hbelow, units_eq_mul, units_eq_mul, hm]
    ring

/-- The nearer of two values is told by the midpoint between them. -/
theorem abs_sub_le_abs_sub_iff {a b q : ℚ} (hab : a < b) : |a - q| ≤ |b - q| ↔ 2 * q ≤ a + b := by
  have hfactor : (b - q) ^ 2 - (a - q) ^ 2 = (b - a) * (a + b - 2 * q) := by ring
  rw [← sq_le_sq, ← sub_nonneg, hfactor, mul_nonneg_iff_of_pos_left (by linarith), sub_nonneg]

theorem abs_sub_eq_abs_sub_iff {a b q : ℚ} (hab : a ≠ b) : |a - q| = |b - q| ↔ 2 * q = a + b := by
  have hfactor : (b - q) ^ 2 - (a - q) ^ 2 = (b - a) * (a + b - 2 * q) := by ring
  rw [← sq_eq_sq_iff_abs_eq_abs, eq_comm, ← sub_eq_zero, hfactor, mul_eq_zero,
    or_iff_right (sub_ne_zero.mpr hab.symm), sub_eq_zero, eq_comm]

section

variable {x y : Double} {q : ℚ}

theorem absolute_lt_absolute_iff : x.absolute < y.absolute ↔ x.units < y.units := by
  rw [absolute, absolute, div_lt_div_iff_of_pos_right unitsPerOne_pos, Nat.cast_lt]

theorem absolute_ne_absolute_iff : x.absolute ≠ y.absolute ↔ x.units ≠ y.units := by
  rw [absolute, absolute, Ne, div_left_inj' unitsPerOne_pos.ne', Nat.cast_inj]

private theorem absolute_add_absolute :
    x.absolute + y.absolute = (x.units + y.units) / unitsPerOne :=
  (add_div _ _ _).symm

theorem nearer_than_above_iff (hless : x.units < y.units) :
    |x.absolute - q| ≤ |y.absolute - q| ↔ 2 * (q * unitsPerOne) ≤ x.units + y.units := by
  rw [abs_sub_le_abs_sub_iff (absolute_lt_absolute_iff.mpr hless), absolute_add_absolute,
    le_div_iff₀ unitsPerOne_pos, mul_assoc]

theorem equally_near_iff (hne : x.units ≠ y.units) :
    |x.absolute - q| = |y.absolute - q| ↔ 2 * (q * unitsPerOne) = x.units + y.units := by
  rw [abs_sub_eq_abs_sub_iff (absolute_ne_absolute_iff.mpr hne), absolute_add_absolute,
    eq_div_iff unitsPerOne_pos.ne', mul_assoc]

theorem nearer_than_below_iff (hless : y.units < x.units) :
    |x.absolute - q| ≤ |y.absolute - q| ↔ (x.units + y.units : ℚ) ≤ 2 * (q * unitsPerOne) := by
  rw [le_iff_lt_or_eq, equally_near_iff hless.ne', ← not_le, nearer_than_above_iff hless, not_le,
    add_comm (y.units : ℚ), eq_comm, ← le_iff_lt_or_eq]

end

theorem units_add_le_overflow (x : Double) :
    (x.units : ℚ) + 2 ^ x.exponent ≤ overflow * unitsPerOne := by
  have hsignificand : (x.significand : ℚ) + 1 ≤ 2 ^ 53 := by exact_mod_cast x.significand_lt
  calc (x.units : ℚ) + 2 ^ x.exponent = (x.significand + 1) * 2 ^ x.exponent := by
        rw [units_eq]
        ring
    _ ≤ 2 ^ 53 * 2 ^ 2045 := by
        gcongr
        · exact one_le_two
        · exact x.exponent_le
    _ = overflow * unitsPerOne := overflow_eq.symm

theorem nearer_than_overflow_iff {x : Double} {q : ℚ} :
    |x.absolute - q| < |overflow - q| ↔
      2 * (q * unitsPerOne) < x.units + overflow * unitsPerOne := by
  have habsolute : x.absolute < overflow := by
    rw [absolute, div_lt_iff₀ unitsPerOne_pos]
    exact (lt_add_of_pos_right _ (by positivity)).trans_le x.units_add_le_overflow
  have hsum : x.absolute + overflow = (x.units + overflow * unitsPerOne) / unitsPerOne := by
    rw [absolute, div_add' _ _ _ unitsPerOne_pos.ne']
  rw [lt_iff_le_and_ne, abs_sub_le_abs_sub_iff habsolute, Ne, abs_sub_eq_abs_sub_iff habsolute.ne,
    ← Ne, ← lt_iff_le_and_ne, hsum, lt_div_iff₀ unitsPerOne_pos, mul_assoc]

/-- The ends of what rounds to a number count if its significand is even. -/
theorem covers_iff {x : Double} {r : ℚ} :
    x.Covers r ↔ x.units - x.below * 2 ^ x.exponent / 4 ≤ r ∧ r ≤ x.units + 2 ^ x.exponent / 2 ∧
      (r = x.units - x.below * 2 ^ x.exponent / 4 ∨ r = x.units + 2 ^ x.exponent / 2 →
        x.significand % 2 = 0) := by
  have hlow : ((x.significand - x.below / 4) * 2 ^ x.exponent : ℚ) =
      x.units - x.below * 2 ^ x.exponent / 4 := by
    rw [units_eq]
    ring
  have hhigh : ((x.significand + 1 / 2) * 2 ^ x.exponent : ℚ) = x.units + 2 ^ x.exponent / 2 := by
    rw [units_eq]
    ring
  rw [Covers, hlow, hhigh]
  constructor
  · intro hx
    exact ⟨hx.le.1, hx.le.2, fun hend => beq_iff_eq.mp (hx.closed_of_eq hend)⟩
  · rintro ⟨hlow, hhigh, heven⟩
    exact enclosed_of_le hlow hhigh fun hend => beq_iff_eq.mpr (heven hend)

theorem Rounds.covers {negative : Bool} {q : ℚ} {x : Double} (hx : x.Rounds negative q)
    (hq : 0 ≤ q) : x.Covers (q * unitsPerOne) := by
  have hpow : (0 : ℚ) < 2 ^ x.exponent := by positivity
  have hscaled : 0 ≤ q * unitsPerOne := mul_nonneg hq unitsPerOne_pos.le
  have hhigh : q * unitsPerOne ≤ x.units + 2 ^ x.exponent / 2 ∧
      (q * unitsPerOne = x.units + 2 ^ x.exponent / 2 → x.significand % 2 = 0) := by
    rcases x.exists_next with ⟨y, hy⟩ | ⟨htop, hodd⟩
    · have hless : x.units < y.units := by
        rw [hy]
        exact Nat.lt_add_of_pos_right (Nat.pow_pos two_pos)
      have hnext : (y.units : ℚ) = x.units + 2 ^ x.exponent := by exact_mod_cast hy
      have hnear := (nearer_than_above_iff hless).mp (hx.nearest y)
      refine ⟨by linarith, fun heq => hx.even y ?_ (absolute_ne_absolute_iff.mpr hless.ne')⟩
      rw [equally_near_iff hless.ne]
      linarith
    · have hnear := nearer_than_overflow_iff.mp hx.bounded
      exact ⟨by linarith, fun heq => by linarith⟩
  have hlow : x.units - x.below * 2 ^ x.exponent / 4 ≤ q * unitsPerOne ∧
      (q * unitsPerOne = x.units - x.below * 2 ^ x.exponent / 4 → x.significand % 2 = 0) := by
    by_cases hzero : x.significand = 0
    · refine ⟨?_, fun _ => by rw [hzero]⟩
      have hunits : (x.units : ℚ) = 0 := by rw [units_eq, hzero, Nat.cast_zero, zero_mul]
      have hbelow : (0 : ℚ) ≤ x.below * 2 ^ x.exponent := by positivity
      linarith
    · obtain ⟨y, hy⟩ := exists_previous hzero
      have hbelow : 0 < x.below := by rcases x.below_cases with hcase | hcase <;> omega
      have hless : y.units < x.units := by
        have hgap : 0 < x.below * 2 ^ x.exponent := Nat.mul_pos hbelow (Nat.pow_pos two_pos)
        omega
      have hprevious : 2 * (y.units : ℚ) + x.below * 2 ^ x.exponent = 2 * x.units := by
        exact_mod_cast hy
      have hnear := (nearer_than_below_iff hless).mp (hx.nearest y)
      refine ⟨by linarith, fun heq => hx.even y ?_ (absolute_ne_absolute_iff.mpr hless.ne)⟩
      rw [equally_near_iff hless.ne']
      linarith
  exact covers_iff.mpr ⟨hlow.1, hhigh.1, Or.rec hlow.2 hhigh.2⟩

theorem Covers.rounds {q : ℚ} {x : Double} (hx : x.Covers (q * unitsPerOne)) :
    x.Rounds x.negative q := by
  have hpow : (0 : ℚ) < 2 ^ x.exponent := by positivity
  obtain ⟨hlow, hhigh, heven⟩ := covers_iff.mp hx
  have habove : ∀ {y : Double}, x.units < y.units → (x.units : ℚ) + 2 ^ x.exponent ≤ y.units :=
    fun hless => by exact_mod_cast units_add_le hless
  have hbelow : ∀ {y : Double}, y.units < x.units →
      2 * (y.units : ℚ) + x.below * 2 ^ x.exponent ≤ 2 * x.units :=
    fun hless => by exact_mod_cast units_add_below_le hless
  constructor
  · rfl
  · intro y
    rcases Nat.lt_trichotomy x.units y.units with hless | heq | hmore
    · rw [nearer_than_above_iff hless]
      linarith [habove hless]
    · rw [absolute, absolute, heq]
    · rw [nearer_than_below_iff hmore]
      linarith [hbelow hmore]
  · intro y hnear hne
    rw [absolute_ne_absolute_iff] at hne
    rw [equally_near_iff hne.symm] at hnear
    apply heven
    rcases Nat.lt_or_gt_of_ne hne with hless | hmore
    · exact .inl (by linarith [hbelow hless])
    · exact .inr (by linarith [habove hmore])
  · have hoverflow := x.units_add_le_overflow
    rw [nearer_than_overflow_iff]
    refine lt_of_le_of_ne (by linarith) fun heq => ?_
    -- Only the end above the largest number is as near to the overflow, and it does not count.
    have hsignificand := heven (.inr (by linarith))
    rcases x.exists_next with ⟨y, hy⟩ | ⟨-, hodd⟩
    · have hnext : (y.units : ℚ) = x.units + 2 ^ x.exponent := by exact_mod_cast hy
      have hpow' : (0 : ℚ) < 2 ^ y.exponent := by positivity
      linarith [y.units_add_le_overflow]
    · omega

/-- A magnitude rounds to the number that covers it. -/
theorem rounds_iff {negative : Bool} {q : ℚ} (hq : 0 ≤ q) {x : Double} :
    x.Rounds negative q ↔ x.negative = negative ∧ x.Covers (q * unitsPerOne) := by
  constructor
  · intro hx
    exact ⟨hx.sign, hx.covers hq⟩
  · rintro ⟨rfl, hx⟩
    exact hx.rounds

private theorem exists_ratio {r : ℚ} (hr : 0 ≤ r) : ∃ num den : Nat, 0 < den ∧ r = num / den := by
  refine ⟨r.num.toNat, r.den, r.den_pos, ?_⟩
  have hnum : (r.num.toNat : ℚ) = r.num := by
    exact_mod_cast Int.toNat_of_nonneg (Rat.num_nonneg.mpr hr)
  rw [hnum, Rat.num_div_den]

/-- A magnitude rounds to one number at most. -/
theorem Rounds.eq {negative : Bool} {q : ℚ} {x y : Double} (hx : x.Rounds negative q)
    (hy : y.Rounds negative q) (hq : 0 ≤ q) : x = y := by
  obtain ⟨num, den, hden, hratio⟩ := exists_ratio (mul_nonneg hq unitsPerOne_pos.le)
  rw [rounds_iff hq, hratio, ← ofUnits?_eq_some_iff hden] at hx hy
  exact Option.some.inj (hx.symm.trans hy)

theorem Rounds.lt_overflow {negative : Bool} {q : ℚ} {x : Double} (hx : x.Rounds negative q) :
    q < overflow := by
  have hpow : (0 : ℚ) < 2 ^ x.exponent := by positivity
  have hnear := nearer_than_overflow_iff.mp hx.bounded
  have hunits := x.units_add_le_overflow
  rw [← mul_lt_mul_iff_of_pos_right unitsPerOne_pos]
  linarith

theorem eq_zero {x : Double} (hx : x.significand = 0) : x = zero x.negative := by
  obtain ⟨negative, significand, exponent, _, _, hnormal⟩ := x
  obtain rfl : significand = 0 := hx
  obtain rfl : exponent = 0 := by omega
  rfl

/-- At most half of the least positive number rounds to zero. -/
theorem rounds_zero (negative : Bool) {q : ℚ} (hq : 0 ≤ q) (hhalf : q * unitsPerOne ≤ 1 / 2) :
    (zero negative).Rounds negative q := by
  have hscaled : 0 ≤ q * unitsPerOne := mul_nonneg hq unitsPerOne_pos.le
  refine (rounds_iff hq).mpr ⟨rfl, covers_iff.mpr ?_⟩
  have hunits : (zero negative).units = 0 := rfl
  have hbelow : (zero negative).below = 2 := rfl
  have hexponent : (zero negative).exponent = 0 := rfl
  rw [hunits, hbelow, hexponent]
  generalize q * (unitsPerOne : ℚ) = r at hscaled hhalf ⊢
  norm_num
  exact ⟨by linarith, by linarith, fun _ => rfl⟩

/-- Rounding a ratio is correct. -/
theorem ofRatio?_eq_some_iff {negative : Bool} {num den : Nat} (hden : 0 < den) {x : Double} :
    ofRatio? negative num den = some x ↔ x.Rounds negative (num / den) := by
  have hnonneg : (0 : ℚ) ≤ num / den := by positivity
  have hscaled : ((num * unitsPerOne : Nat) : ℚ) / den = num / den * unitsPerOne := by
    rw [Nat.cast_mul, mul_div_right_comm]
  rw [rounds_iff hnonneg, ← hscaled]
  exact ofUnits?_eq_some_iff hden

end Schematic.Double
