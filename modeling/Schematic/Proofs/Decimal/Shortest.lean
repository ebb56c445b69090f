import Schematic.Decimal.Shortest
import Schematic.Proofs.Decimal.Rounding

namespace Schematic.Decimal

open Double (unitsPerOne unitsPerOne_pos unitsPerOne_eq)

private theorem ten_zpow_leading_le {num den : Nat} (hnum : 0 < num) (hden : 0 < den) :
    (10 : ℚ) ^ leading num den ≤ num / den := by
  have hpos : (0 : ℚ) < den := by exact_mod_cast hden
  unfold leading
  split
  · next hle =>
    have hwhole : num / den ≠ 0 := (Nat.div_pos hle hden).ne'
    have hlength : 0 < (digits (num / den)).length := Nat.length_toDigits_pos
    have hcast : ((digits (num / den)).length - 1 : ℤ) =
        ((digits (num / den)).length - 1 : Nat) := by omega
    rw [hcast, zpow_natCast, le_div_iff₀ hpos]
    exact_mod_cast (Nat.le_div_iff_mul_le hden).mp (pow_length_digits_le hwhole)
  · have hless := (Nat.div_lt_iff_lt_mul hnum).mp (lt_pow_length_digits ((den - 1) / num))
    rw [zpow_neg, zpow_natCast, inv_le_comm₀ (by positivity) (by positivity), inv_div,
      div_le_iff₀ (by exact_mod_cast hnum)]
    exact_mod_cast (by omega : den ≤ 10 ^ (digits ((den - 1) / num)).length * num)

/-- Whether a multiple of `10^k` lies in the interval. -/
def Interval.inside (i : Interval) (k : ℤ) (c : Nat) : Bool :=
  let point := quartersPerOne * Nat.pow 10 k.toNat
  let bound := Nat.pow 10 (-k).toNat
  if i.closed then i.low * bound ≤ c * point && c * point ≤ i.high * bound
  else i.low * bound < c * point && c * point < i.high * bound

/-- The neighbour of the interval's value that is not greater. -/
def Interval.down (i : Interval) (k : ℤ) : Nat :=
  i.value * Nat.pow 10 (-k).toNat / (quartersPerOne * Nat.pow 10 k.toNat)

/-- A multiple is taken from the interval, and none only if neither neighbour lies there. -/
theorem Interval.onGrid?_cases (i : Interval) (tie : Tie) (k : ℤ) :
    (∃ c, i.onGrid? tie k = some c ∧ i.inside k c = true) ∨
      i.onGrid? tie k = none ∧ i.inside k (i.down k) = false ∧
        i.inside k (i.down k + 1) = false := by
  unfold onGrid?
  dsimp only
  split
  · next hdown hup => exact .inr ⟨rfl, hdown, hup⟩
  · next hdown hup => exact .inl ⟨_, rfl, hdown⟩
  · next hdown hup => exact .inl ⟨_, rfl, hup⟩
  · next hdown hup =>
    left
    split
    · exact ⟨_, rfl, hdown⟩
    split
    · exact ⟨_, rfl, hup⟩
    cases tie with
    | up => exact ⟨_, rfl, hup⟩
    | even =>
      dsimp only
      split
      · exact ⟨_, rfl, hdown⟩
      · exact ⟨_, rfl, hup⟩

private theorem enclosed_natCast {closed : Bool} {low high t : Nat} :
    Enclosed closed low high t ↔
      (if closed then decide (low ≤ t) && decide (t ≤ high)
        else decide (low < t) && decide (t < high)) = true := by
  cases closed <;> simp [Enclosed]

/-- A multiple of `10^k`, in units and then scaled up to a whole number. -/
theorem grid_eq (k : ℤ) (c : Nat) :
    c * 10 ^ k * unitsPerOne * (4 * 10 ^ (-k).toNat) =
      ((c * (4 * unitsPerOne * 10 ^ k.toNat) : Nat) : ℚ) := by
  rw [ten_zpow]
  generalize unitsPerOne = u
  push_cast
  field_simp

theorem inside_of_iff {x : Double} (hx : x.significand ≠ 0) {k : ℤ} {c : Nat} :
    (Interval.of x).inside k c = true ↔ x.Covers (c * 10 ^ k * unitsPerOne) := by
  have hbelow : x.below ≤ 4 * x.significand := by
    rcases x.below_cases with hcase | hcase <;> omega
  have hscale : (0 : ℚ) < 4 * 10 ^ (-k).toNat := by positivity
  have hlow : (x.significand - x.below / 4) * 2 ^ x.exponent * (4 * 10 ^ (-k).toNat) =
      (((4 * x.significand - x.below) * 2 ^ x.exponent * 10 ^ (-k).toNat : Nat) : ℚ) := by
    push_cast [hbelow]
    ring
  have hhigh : (x.significand + 1 / 2) * 2 ^ x.exponent * (4 * 10 ^ (-k).toNat) =
      (((4 * x.significand + 2) * 2 ^ x.exponent * 10 ^ (-k).toNat : Nat) : ℚ) := by
    push_cast
    ring
  rw [Double.Covers, ← enclosed_mul_iff hscale, hlow, hhigh, grid_eq, enclosed_natCast]
  rfl

private theorem value_of (x : Double) : (Interval.of x).value = 4 * x.units := by
  rw [Double.units, ← Nat.mul_assoc]
  rfl

/-- The value of the interval lies between the two neighbours. -/
theorem down_bounds (x : Double) (k : ℤ) :
    ((Interval.of x).down k : ℚ) * 10 ^ k * unitsPerOne ≤ x.units ∧
      (x.units : ℚ) < ((Interval.of x).down k + 1 : Nat) * 10 ^ k * unitsPerOne := by
  have hscale : (0 : ℚ) < 4 * 10 ^ (-k).toNat := by positivity
  have hunits : (x.units : ℚ) * (4 * 10 ^ (-k).toNat) =
      ((4 * x.units * 10 ^ (-k).toNat : Nat) : ℚ) := by
    push_cast
    ring
  have hpositive : 0 < 4 * unitsPerOne * 10 ^ k.toNat := by
    have := Nat.cast_pos.mp unitsPerOne_pos
    positivity
  rw [← mul_le_mul_iff_of_pos_right hscale, ← mul_lt_mul_iff_of_pos_right hscale, grid_eq, grid_eq,
    hunits, Nat.cast_le, Nat.cast_lt]
  have hdown : (Interval.of x).down k =
      4 * x.units * 10 ^ (-k).toNat / (4 * unitsPerOne * 10 ^ k.toNat) := by
    rw [Interval.down, value_of]
    rfl
  rw [hdown]
  exact ⟨Nat.div_mul_le_self _ _, (Nat.div_lt_iff_lt_mul hpositive).mp (Nat.lt_succ_self _)⟩

/-- Of two values around a number one rounds to it, if they are nearer to each other than the
midpoints to its neighbours are. -/
theorem covers_or_covers {x : Double} {r s : ℚ} (hr : r ≤ x.units) (hs : x.units < s)
    (hwidth : s - r < 2 ^ x.exponent / 2 + x.below * 2 ^ x.exponent / 4) :
    x.Covers r ∨ x.Covers s := by
  have hpow : (0 : ℚ) < 2 ^ x.exponent := by positivity
  have hgap : (0 : ℚ) ≤ x.below * 2 ^ x.exponent := by positivity
  rw [Double.covers_iff, Double.covers_iff]
  rcases lt_or_ge (x.units - x.below * 2 ^ x.exponent / 4 : ℚ) r with hlow | hlow
  · refine .inl ⟨hlow.le, by linarith, fun hend => ?_⟩
    rcases hend with hend | hend <;> linarith
  · refine .inr ⟨by linarith, by linarith, fun hend => ?_⟩
    rcases hend with hend | hend <;> linarith

/-- A part in `10^16` of a number is less than the distance of these midpoints. -/
theorem lt_width {x : Double} {s : ℚ} (hs : s * 10 ^ 16 ≤ x.units) :
    s < 2 ^ x.exponent / 2 + x.below * 2 ^ x.exponent / 4 := by
  have hpow : (0 : ℚ) < 2 ^ x.exponent := by positivity
  rw [Double.units_eq] at hs
  rcases x.below_cases with ⟨hbelow, hsignificand, -⟩ | ⟨hbelow, -⟩
  · rw [hsignificand] at hs
    rw [hbelow]
    push_cast at hs ⊢
    linarith
  · have hsignificand : (x.significand : ℚ) ≤ 0x20000000000000 := by
      exact_mod_cast x.significand_lt.le
    have hunits := hs.trans (mul_le_mul_of_nonneg_right hsignificand hpow.le)
    rw [hbelow]
    push_cast
    linarith

/-- Seventeen digits suffice. -/
theorem exists_onGrid? {x : Double} (hx : x.significand ≠ 0) (tie : Tie) :
    ∃ c, (Interval.of x).onGrid? tie (leading (Interval.of x).value quartersPerOne - 16) =
      some c := by
  have hunits : 0 < x.units := Nat.mul_pos (Nat.pos_of_ne_zero hx) (Nat.pow_pos two_pos)
  have hone : 0 < unitsPerOne := Nat.cast_pos.mp unitsPerOne_pos
  have hleading : (10 : ℚ) ^ leading (Interval.of x).value quartersPerOne * unitsPerOne ≤
      x.units := by
    rw [← le_div_iff₀ unitsPerOne_pos, value_of, quartersPerOne]
    refine (ten_zpow_leading_le (by omega) (by omega)).trans_eq ?_
    push_cast
    rw [mul_div_mul_left _ _ four_ne_zero]
  generalize leading (Interval.of x).value quartersPerOne = top at hleading ⊢
  have hstep : (10 : ℚ) ^ (top - 16) * unitsPerOne * 10 ^ 16 ≤ x.units := by
    refine le_trans (le_of_eq ?_) hleading
    rw [zpow_sub₀ (by norm_num)]
    field_simp
  rcases (Interval.of x).onGrid?_cases tie (top - 16) with ⟨c, hc, -⟩ | ⟨-, hdown, hup⟩
  · exact ⟨c, hc⟩
  · rw [← Bool.not_eq_true, inside_of_iff hx] at hdown hup
    obtain ⟨hle, hlt⟩ := down_bounds x (top - 16)
    have hwidth : ((Interval.of x).down (top - 16) + 1 : Nat) * 10 ^ (top - 16) * unitsPerOne -
        (Interval.of x).down (top - 16) * 10 ^ (top - 16) * unitsPerOne =
        (10 : ℚ) ^ (top - 16) * unitsPerOne := by
      push_cast
      ring
    rcases covers_or_covers hle hlt (hwidth ▸ lt_width hstep) with hcovers | hcovers
    · exact absurd hcovers hdown
    · exact absurd hcovers hup

/-- What is found on a grid is written with its digits there, or as the next power of ten; both
are of one value. -/
theorem value_carry (c n : Nat) (top : ℤ) :
    value (if c = Nat.pow 10 (n + 1) then ⟨1, top + 1⟩ else ⟨c, top - n⟩) =
      c * 10 ^ (top - n : ℤ) := by
  split
  · next hcarry =>
    have hpow : (c : ℚ) = 10 ^ ((n + 1 : Nat) : ℤ) := by
      rw [hcarry, Nat.pow_eq, zpow_natCast, Nat.cast_pow, Nat.cast_ofNat]
    rw [value, hpow, ← zpow_add₀ (by norm_num), Nat.cast_one, one_mul]
    congr 1
    push_cast
    ring
  · rfl

/-- The shortest decimal of a number rounds to it. -/
theorem rounds_shortest (tie : Tie) (x : Double) : x.Rounds x.negative (shortest tie x).value := by
  unfold shortest
  split
  · next hzero =>
    have hvalue : value ⟨0, 0⟩ = 0 := by rw [value, Nat.cast_zero, zero_mul]
    rw [hvalue, Double.eq_zero (beq_iff_eq.mp hzero)]
    refine Double.rounds_zero _ le_rfl ?_
    rw [zero_mul]
    exact one_half_pos.le
  · next hzero =>
    have hx : x.significand ≠ 0 := by simpa [Double.isZero] using hzero
    dsimp only
    generalize htop : leading (Interval.of x).value quartersPerOne = top
    generalize hfound : (List.range 17).findSome? _ = found
    cases found with
    | none =>
      obtain ⟨c, hc⟩ := exists_onGrid? hx tie
      rw [htop] at hc
      have hlast := List.findSome?_eq_none_iff.mp hfound 16 (by decide)
      rw [Nat.cast_ofNat, hc] at hlast
      cases hlast
    | some d =>
      obtain ⟨n, -, hn⟩ := List.exists_of_findSome?_eq_some hfound
      obtain ⟨c, hc, rfl⟩ := Option.map_eq_some_iff.mp hn
      rw [Option.getD_some, Double.rounds_iff (value_nonneg _), value_carry]
      refine ⟨rfl, (inside_of_iff hx).mp ?_⟩
      rcases (Interval.of x).onGrid?_cases tie (top - n) with ⟨c', hc', hinside⟩ | ⟨hnone, -⟩
      · obtain rfl : c = c' := Option.some.inj (hc.symm.trans hc')
        exact hinside
      · cases hnone.symm.trans hc

end Schematic.Decimal
