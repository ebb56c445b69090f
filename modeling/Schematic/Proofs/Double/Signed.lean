import Mathlib.Data.Rat.Floor
import Schematic.Proofs.Double.Nearest

namespace Schematic.Double

private theorem units_eq_natAbs (x : Double) : x.units = x.scaled.natAbs := by
  unfold scaled
  split <;> omega

theorem isZero_iff {x : Double} : x.isZero = true ↔ x.scaled = 0 := by
  have hpow : 2 ^ x.exponent ≠ 0 := (Nat.pow_pos two_pos).ne'
  rw [isZero, beq_iff_eq, ← Int.natAbs_eq_zero, ← units_eq_natAbs, units_eq_mul, Nat.mul_eq_zero,
    or_iff_left hpow]

private theorem rounds_absolute (x : Double) : x.Rounds x.negative x.absolute := by
  constructor
  · rfl
  · intro y
    rw [sub_self, abs_zero]
    exact abs_nonneg _
  · intro y heq hne
    rw [sub_self, abs_zero, eq_comm, abs_eq_zero, sub_eq_zero] at heq
    exact absurd heq hne
  · have hpow : (0 : ℚ) < 2 ^ x.exponent := by positivity
    have hunits : x.absolute * unitsPerOne = x.units := div_mul_cancel₀ _ unitsPerOne_pos.ne'
    rw [nearer_than_overflow_iff, hunits]
    linarith [x.units_add_le_overflow]

/-- Only zero has a sign that its value does not show. -/
theorem eq_of_scaled_eq {x y : Double} (hscaled : x.scaled = y.scaled) (hx : x.scaled ≠ 0) :
    x = y := by
  have hunits : x.units = y.units := by rw [units_eq_natAbs, units_eq_natAbs, hscaled]
  have hsign : x.negative = y.negative := by
    unfold scaled at hscaled hx
    cases hxs : x.negative <;> cases hys : y.negative <;> simp [hxs, hys] at hscaled hx ⊢ <;> omega
  have habsolute : x.absolute = y.absolute := by rw [absolute, absolute, hunits]
  have hy := y.rounds_absolute
  rw [← hsign, ← habsolute] at hy
  exact x.rounds_absolute.eq hy (div_nonneg (Nat.cast_nonneg _) unitsPerOne_pos.le)

theorem eq_or_isZero_of_scaled_eq {x y : Double} (hscaled : x.scaled = y.scaled) :
    x = y ∨ x.isZero = true ∧ y.isZero = true := by
  by_cases hx : x.scaled = 0
  · exact .inr ⟨isZero_iff.mpr hx, isZero_iff.mpr (hscaled ▸ hx)⟩
  · exact .inl (eq_of_scaled_eq hscaled hx)

theorem ofInt?_eq_some_iff {i : Int} {x : Double} :
    ofInt? i = some x ↔ x.Rounds (decide (i < 0)) i.natAbs := by
  rw [ofInt?, ofRatio?_eq_some_iff one_pos, Nat.cast_one, div_one]

theorem eq_zero_of_ofInt? {i : Int} {x : Double} (hx : ofInt? i = some x)
    (hzero : x.isZero = true) : i = 0 := by
  have hunits : x.units = 0 := by rw [units_eq_natAbs, isZero_iff.mp hzero, Int.natAbs_zero]
  have hone : one.absolute = 1 := by
    have hunits : one.units = unitsPerOne := by decide +kernel
    rw [absolute, hunits, div_self unitsPerOne_pos.ne']
  have hnear := (ofInt?_eq_some_iff.mp hx).nearest one
  rw [hone, absolute, hunits, Nat.cast_zero, zero_div, zero_sub, abs_neg, Nat.abs_cast] at hnear
  by_contra hi
  -- One would be nearer than zero.
  have hpos : (1 : ℚ) ≤ i.natAbs := by exact_mod_cast Int.natAbs_pos.mpr hi
  rw [abs_of_nonpos (by linarith)] at hnear
  linarith

theorem truncate_eq_tdiv (x : Double) : x.truncate = x.scaled.tdiv unitsPerOne := by
  unfold truncate scaled
  split
  · rw [Int.neg_tdiv, Int.natCast_ediv]
    rfl
  · rfl

/-- A number that is equal to an integer has no fraction to lose. -/
theorem truncate_of_scaled_eq {x : Double} {i : Int} (hx : x.scaled = i * unitsPerOne) :
    x.truncate = i := by
  have hunits : (unitsPerOne : Int) ≠ 0 := by exact_mod_cast unitsPerOne_pos.ne'
  rw [truncate_eq_tdiv, hx, Int.mul_tdiv_cancel i hunits]

/-- The exact value: a whole number times a power of two, with its sign. -/
def value (x : Double) : ℚ :=
  (if x.negative then -1 else 1) * x.significand * 2 ^ ((x.exponent : ℤ) - 1074)

/-- What is left of a number without its fraction. -/
def towardZero (q : ℚ) : ℤ :=
  if 0 ≤ q then ⌊q⌋ else ⌈q⌉

private theorem value_eq (x : Double) :
    x.value = if x.negative then -x.absolute else x.absolute := by
  have habsolute : x.absolute = x.significand * 2 ^ ((x.exponent : ℤ) - 1074) := by
    rw [absolute, units_eq, unitsPerOne_eq, Nat.cast_pow, Nat.cast_ofNat,
      zpow_sub₀ two_ne_zero, zpow_natCast, zpow_ofNat, mul_div_assoc]
  rw [value, habsolute]
  cases x.negative with
  | true => rw [if_pos rfl, if_pos rfl, neg_one_mul, neg_mul]
  | false => rw [if_neg Bool.false_ne_true, if_neg Bool.false_ne_true, one_mul]

private theorem absolute_nonneg (x : Double) : 0 ≤ x.absolute :=
  div_nonneg (Nat.cast_nonneg _) unitsPerOne_pos.le

private theorem abs_value (x : Double) : |x.value| = x.absolute := by
  rw [value_eq]
  split
  · rw [abs_neg, abs_of_nonneg x.absolute_nonneg]
  · exact abs_of_nonneg x.absolute_nonneg

theorem abs_value_lt_iff {x : Double} {n : Nat} :
    |x.value| < n ↔ x.units < n * unitsPerOne := by
  rw [abs_value, absolute, div_lt_iff₀ unitsPerOne_pos]
  exact_mod_cast Iff.rfl

private theorem towardZero_neg (q : ℚ) : towardZero (-q) = -towardZero q := by
  unfold towardZero
  rcases lt_trichotomy q 0 with hq | rfl | hq
  · rw [if_pos (by linarith), if_neg hq.not_ge, Int.floor_neg]
  · simp
  · rw [if_neg (by linarith), if_pos hq.le, Int.ceil_neg]

private theorem towardZero_absolute (x : Double) :
    towardZero x.absolute = (x.units / unitsPerOne : Nat) := by
  rw [towardZero, if_pos x.absolute_nonneg, absolute, Rat.floor_natCast_div_natCast,
    Int.natCast_ediv]

theorem truncate_eq_towardZero (x : Double) : x.truncate = towardZero x.value := by
  rw [truncate, value_eq]
  split
  · rw [towardZero_neg, towardZero_absolute]
  · rw [towardZero_absolute]

/-- No number is farther from zero than the one that it loses its fraction from. -/
theorem abs_towardZero_le (q : ℚ) : |(towardZero q : ℚ)| ≤ |q| := by
  unfold towardZero
  split
  · next hq =>
    have hfloor : (0 : ℚ) ≤ ⌊q⌋ := by exact_mod_cast Int.floor_nonneg.mpr hq
    rw [abs_of_nonneg hfloor, abs_of_nonneg hq]
    exact Int.floor_le q
  · next hq =>
    have hneg : q ≤ 0 := (not_le.mp hq).le
    have hceil : (⌈q⌉ : ℚ) ≤ 0 := by exact_mod_cast Int.ceil_le.mpr (by simpa using hneg)
    rw [abs_of_nonpos hceil, abs_of_nonpos hneg, neg_le_neg_iff]
    exact Int.le_ceil q

end Schematic.Double
