import Schematic.Double.Round
import Mathlib.Algebra.Order.Field.Rat
import Mathlib.Tactic.FieldSimp
import Mathlib.Tactic.Linarith
import Mathlib.Tactic.Positivity
import Mathlib.Tactic.Ring

namespace Schematic

/-- A value lies between two ends, which count if the range is closed. -/
def Enclosed (closed : Bool) (low high t : ℚ) : Prop :=
  if closed then low ≤ t ∧ t ≤ high else low < t ∧ t < high

theorem Enclosed.le {closed : Bool} {low high t : ℚ} (ht : Enclosed closed low high t) :
    low ≤ t ∧ t ≤ high := by
  cases closed with
  | true => exact ht
  | false => exact ⟨ht.1.le, ht.2.le⟩

/-- An end that is reached counts. -/
theorem Enclosed.closed_of_eq {closed : Bool} {low high t : ℚ} (ht : Enclosed closed low high t)
    (hend : t = low ∨ t = high) : closed = true := by
  cases closed with
  | true => rfl
  | false =>
    obtain ⟨hlow, hhigh⟩ := ht
    rcases hend with hend | hend <;> linarith

private theorem enclosed_of_lt {low high t : ℚ} (closed : Bool) (hlow : low < t)
    (hhigh : t < high) :
    Enclosed closed low high t := by
  cases closed with
  | true => exact ⟨hlow.le, hhigh.le⟩
  | false => exact ⟨hlow, hhigh⟩

theorem enclosed_of_le {closed : Bool} {low high t : ℚ} (hlow : low ≤ t) (hhigh : t ≤ high)
    (hend : t = low ∨ t = high → closed = true) : Enclosed closed low high t := by
  cases closed with
  | true => exact ⟨hlow, hhigh⟩
  | false =>
    have hne := mt hend Bool.false_ne_true
    exact ⟨lt_of_le_of_ne hlow fun heq => hne (.inl heq.symm),
      lt_of_le_of_ne hhigh fun heq => hne (.inr heq)⟩

theorem enclosed_mul_iff {closed : Bool} {low high t s : ℚ} (hs : 0 < s) :
    Enclosed closed (low * s) (high * s) (t * s) ↔ Enclosed closed low high t := by
  simp only [Enclosed, mul_le_mul_iff_of_pos_right hs, mul_lt_mul_iff_of_pos_right hs]

/-- The values that round to a whole number: the ends belong to the even ones. -/
def Halves (m : Nat) (t : ℚ) : Prop :=
  Enclosed (m % 2 == 0) (m - 1 / 2) (m + 1 / 2) t

private theorem halves_roundHalfEven (num : Nat) {den : Nat} (hden : 0 < den) :
    Halves (roundHalfEven num den) (num / den) := by
  have hpos : (0 : ℚ) < den := by exact_mod_cast hden
  have hsplit : (num : ℚ) / den = (num / den : Nat) + (num % den : Nat) / den := by
    rw [add_div' _ _ _ hpos.ne', div_left_inj' hpos.ne', eq_comm]
    exact_mod_cast Nat.div_add_mod' num den
  have hrest : (0 : ℚ) ≤ (num % den : Nat) / den := by positivity
  rw [Halves, hsplit]
  unfold roundHalfEven
  dsimp only
  split
  · next hless =>
    have hhalf : ((num % den : Nat) : ℚ) / den < 1 / 2 := by
      rw [div_lt_div_iff₀ hpos two_pos]
      exact_mod_cast (by omega : num % den * 2 < 1 * den)
    exact enclosed_of_lt _ (by linarith) (by linarith)
  · split
    · next hmore =>
      have hhalf : 1 / 2 < ((num % den : Nat) : ℚ) / den := by
        rw [div_lt_div_iff₀ two_pos hpos]
        exact_mod_cast (by omega : 1 * den < num % den * 2)
      have hone : ((num % den : Nat) : ℚ) / den < 1 := by
        rw [div_lt_one hpos]
        exact_mod_cast Nat.mod_lt num hden
      push_cast
      exact enclosed_of_lt _ (by linarith) (by linarith)
    · have hhalf : ((num % den : Nat) : ℚ) / den = 1 / 2 := by
        rw [div_eq_div_iff hpos.ne' two_ne_zero]
        exact_mod_cast (by omega : num % den * 2 = 1 * den)
      rw [hhalf]
      split
      · next heven =>
        rw [beq_iff_eq.mpr heven]
        exact ⟨by linarith, le_rfl⟩
      · next hodd =>
        rw [beq_iff_eq.mpr (by omega : (num / den + 1) % 2 = 0)]
        push_cast
        exact ⟨by linarith, by linarith⟩

theorem Halves.eq {m n : Nat} {t : ℚ} (hm : Halves m t) (hn : Halves n t) : m = n := by
  wlog hless : m < n generalizing m n
  · rcases Nat.lt_trichotomy m n with hlt | heq | hgt
    · exact this hm hn hlt
    · exact heq
    · exact (this hn hm hgt).symm
  -- The ranges of two whole numbers meet at most in an end, which only one of them has.
  have hnext : (m : ℚ) + 1 ≤ n := by exact_mod_cast hless
  have hhigh := hm.le.2
  have hlow := hn.le.1
  have hm_even := hm.closed_of_eq (.inr (by linarith))
  have hn_even := hn.closed_of_eq (.inl (by linarith))
  have heq : (m : ℚ) + 1 = n := by linarith
  have : m + 1 = n := by exact_mod_cast heq
  simp only [beq_iff_eq] at hm_even hn_even
  omega

theorem roundHalfEven_eq_iff {num den m : Nat} (hden : 0 < den) :
    roundHalfEven num den = m ↔ Halves m (num / den) := by
  constructor
  · rintro rfl
    exact halves_roundHalfEven num hden
  · exact (halves_roundHalfEven num hden).eq

namespace Double

/-- The distance to the lower neighbour, in halves of the distance to the upper one: it is half as
far away where the significand is the least of its exponent. -/
def below (x : Double) : Nat :=
  if x.significand = 0x10000000000000 ∧ 0 < x.exponent then 1 else 2

/-- The values that round to the magnitude of a number, in units. -/
def Covers (x : Double) (r : ℚ) : Prop :=
  Enclosed (x.significand % 2 == 0) ((x.significand - x.below / 4) * 2 ^ x.exponent)
    ((x.significand + 1 / 2) * 2 ^ x.exponent) r

theorem below_cases (x : Double) :
    x.below = 1 ∧ x.significand = 0x10000000000000 ∧ 0 < x.exponent ∨
      x.below = 2 ∧ (x.exponent = 0 ∨ 0x10000000000001 ≤ x.significand) := by
  have hnormal := x.normal
  unfold below
  split
  · next hbottom => exact .inl ⟨rfl, hbottom⟩
  · next hbottom =>
    refine .inr ⟨rfl, ?_⟩
    omega

/-- An exponent at which a value takes 53 bits, or fewer if it is the least exponent. -/
def Fills (e : Nat) (r : ℚ) : Prop :=
  r < 0x20000000000000 * 2 ^ e ∧ (e = 0 ∨ 0x10000000000000 * 2 ^ e ≤ r)

theorem Fills.eq {d e : Nat} {r : ℚ} (hd : Fills d r) (he : Fills e r) : d = e := by
  wlog hless : d < e generalizing d e
  · rcases Nat.lt_trichotomy d e with hlt | heq | hgt
    · exact this hd he hlt
    · exact heq
    · exact (this he hd hgt).symm
  have hlow : (0x10000000000000 : ℚ) * 2 ^ e ≤ r := he.2.resolve_left (by omega)
  have hpow : (2 : ℚ) ^ (d + 1) ≤ 2 ^ e := pow_le_pow_right₀ one_le_two hless
  rw [pow_succ] at hpow
  linarith [hd.1]

private theorem fills_exponentFor (num : Nat) {den : Nat} (hden : 0 < den) :
    Fills (exponentFor (num / den)) (num / den) := by
  have hpos : (0 : ℚ) < den := by exact_mod_cast hden
  have hbound : num / den < 2 ^ (Nat.log2 (num / den) + 1) := Nat.lt_log2_self
  constructor
  · rw [div_lt_iff₀ hpos]
    have hpow : 2 ^ (Nat.log2 (num / den) + 1) ≤
        0x20000000000000 * 2 ^ exponentFor (num / den) := by
      rw [show 0x20000000000000 = 2 ^ 53 from rfl, ← pow_add]
      exact Nat.pow_le_pow_right two_pos (by unfold exponentFor; omega)
    exact_mod_cast (Nat.div_lt_iff_lt_mul hden).mp (hbound.trans_le hpow)
  · rcases Nat.eq_zero_or_pos (exponentFor (num / den)) with hzero | hexp
    · exact .inl hzero
    · right
      rw [le_div_iff₀ hpos]
      have hwhole : num / den ≠ 0 := by
        intro heq
        rw [heq] at hexp
        exact absurd hexp (by decide)
      have hpow : 0x10000000000000 * 2 ^ exponentFor (num / den) ≤ num / den := by
        rw [show 0x10000000000000 = 2 ^ 52 from rfl, ← pow_add]
        refine (Nat.pow_le_pow_right two_pos ?_).trans (Nat.log2_self_le hwhole)
        unfold exponentFor at hexp ⊢
        omega
      exact_mod_cast (Nat.le_div_iff_mul_le hden).mp hpow

theorem ofParts?_eq_some_iff {negative : Bool} {significand exponent : Nat} {x : Double} :
    ofParts? negative significand exponent = some x ↔
      x.negative = negative ∧ x.significand = significand ∧ x.exponent = exponent := by
  constructor
  · intro hx
    unfold ofParts? at hx
    split at hx
    · cases hx
      exact ⟨rfl, rfl, rfl⟩
    · cases hx
  · rintro ⟨rfl, rfl, rfl⟩
    exact ofParts?_fields x

theorem halves_div_iff {m e : Nat} {r : ℚ} :
    Halves m (r / 2 ^ e) ↔
      Enclosed (m % 2 == 0) ((m - 1 / 2) * 2 ^ e) ((m + 1 / 2) * 2 ^ e) r := by
  have hpow : (0 : ℚ) < 2 ^ e := by positivity
  rw [Halves, ← enclosed_mul_iff hpow, div_mul_cancel₀ _ hpow.ne']

/-- A value is rounded at the exponent that it fills; a significand of 54 bits is carried over. -/
theorem ofUnits?_eq_some_iff_halves {negative : Bool} {num den : Nat} (hden : 0 < den)
    {x : Double} :
    ofUnits? negative num den = some x ↔ x.negative = negative ∧
      ∃ e m, Fills e (num / den) ∧ Halves m (num / den / 2 ^ e) ∧
        (m = 0x20000000000000 ∧ x.significand = 0x10000000000000 ∧ x.exponent = e + 1 ∨
          m ≠ 0x20000000000000 ∧ x.significand = m ∧ x.exponent = e) := by
  have hround : ∀ e m, roundHalfEven num (den * Nat.pow 2 e) = m ↔
      Halves m (num / den / 2 ^ e) := by
    intro e m
    have hpos : 0 < den * 2 ^ e := by positivity
    rw [show Nat.pow 2 e = 2 ^ e from rfl, roundHalfEven_eq_iff hpos]
    push_cast
    rw [div_div]
  have hfills := fills_exponentFor num hden
  unfold ofUnits?
  dsimp only
  constructor
  · intro hx
    split at hx
    · next hcarry =>
      obtain ⟨hsign, hparts⟩ := ofParts?_eq_some_iff.mp hx
      exact ⟨hsign, _, _, hfills, (hround _ _).mp hcarry, .inl ⟨rfl, hparts⟩⟩
    · next hcarry =>
      obtain ⟨hsign, hparts⟩ := ofParts?_eq_some_iff.mp hx
      exact ⟨hsign, _, _, hfills, (hround _ _).mp rfl, .inr ⟨hcarry, hparts⟩⟩
  · rintro ⟨hsign, e, m, he, hm, hparts⟩
    obtain rfl := he.eq hfills
    rw [(hround _ _).mpr hm]
    rcases hparts with ⟨hcarry, hparts⟩ | ⟨hcarry, hparts⟩
    · rw [if_pos hcarry]
      exact ofParts?_eq_some_iff.mpr ⟨hsign, hparts⟩
    · rw [if_neg hcarry]
      exact ofParts?_eq_some_iff.mpr ⟨hsign, hparts⟩

private theorem covers_of_halves {x : Double} {e m : Nat} {r : ℚ} (he : Fills e r)
    (hm : Halves m (r / 2 ^ e))
    (hx : m = 0x20000000000000 ∧ x.significand = 0x10000000000000 ∧ x.exponent = e + 1 ∨
      m ≠ 0x20000000000000 ∧ x.significand = m ∧ x.exponent = e) : x.Covers r := by
  have hpow : (0 : ℚ) < 2 ^ e := by positivity
  rw [halves_div_iff] at hm
  rcases hx with ⟨rfl, hsignificand, hexponent⟩ | ⟨-, rfl, rfl⟩
  · -- The range around `2^53` is that around `2^52` at the next exponent, below and further above.
    have hbelow : x.below = 1 := if_pos ⟨hsignificand, by omega⟩
    obtain ⟨hlow, hhigh⟩ := hm.le
    rw [Covers, hbelow, hsignificand, hexponent, pow_succ]
    push_cast at hlow hhigh ⊢
    refine ⟨?_, ?_⟩ <;> linarith
  · rcases x.below_cases with ⟨hbelow, hsignificand, hexponent⟩ | ⟨hbelow, -⟩
    · have hlow := he.2.resolve_left hexponent.ne'
      have hhigh := hm.le.2
      rw [Covers, hbelow, hsignificand]
      rw [hsignificand] at hhigh
      push_cast at hhigh ⊢
      refine ⟨?_, ?_⟩ <;> linarith
    · rw [Covers, hbelow]
      convert hm using 3
      norm_num

theorem Covers.exists_halves {x : Double} {r : ℚ} (hx : x.Covers r) :
    ∃ e m, Fills e r ∧ Halves m (r / 2 ^ e) ∧
      (m = 0x20000000000000 ∧ x.significand = 0x10000000000000 ∧ x.exponent = e + 1 ∨
        m ≠ 0x20000000000000 ∧ x.significand = m ∧ x.exponent = e) := by
  have hpow : (0 : ℚ) < 2 ^ x.exponent := by positivity
  obtain ⟨hlow, hhigh⟩ := hx.le
  have hsmall : (x.significand : ℚ) + 1 ≤ 0x20000000000000 := by exact_mod_cast x.significand_lt
  have hbound : r < 0x20000000000000 * 2 ^ x.exponent := by
    refine hhigh.trans_lt ?_
    gcongr
    linarith
  have hne : x.significand ≠ 0x20000000000000 := x.significand_lt.ne
  rcases x.below_cases with ⟨hbelow, hsignificand, hexponent⟩ | ⟨hbelow, hnormal⟩
  · rcases lt_or_ge r (0x10000000000000 * 2 ^ x.exponent) with hless | hmore
    · -- A value below the least of its exponent is rounded at the exponent before.
      obtain ⟨e, he⟩ : ∃ e, x.exponent = e + 1 := ⟨x.exponent - 1, by omega⟩
      rw [hbelow, hsignificand, he, pow_succ] at hlow
      rw [he, pow_succ] at hless hpow
      refine ⟨e, 0x20000000000000, ⟨by linarith, .inr ?_⟩, ?_, .inl ⟨rfl, hsignificand, he⟩⟩
      · push_cast at hlow
        linarith
      · rw [halves_div_iff]
        push_cast at hlow ⊢
        exact ⟨by linarith, by linarith⟩
    · refine ⟨x.exponent, x.significand, ⟨hbound, .inr hmore⟩, ?_, .inr ⟨hne, rfl, rfl⟩⟩
      rw [halves_div_iff]
      rw [hsignificand] at hhigh ⊢
      push_cast at hhigh ⊢
      exact ⟨by linarith, by linarith⟩
  · refine ⟨x.exponent, x.significand, ⟨hbound, ?_⟩, ?_, .inr ⟨hne, rfl, rfl⟩⟩
    · refine hnormal.imp_right fun hsignificand => ?_
      have hlarge : (0x10000000000001 : ℚ) ≤ x.significand := by exact_mod_cast hsignificand
      refine le_trans ?_ hlow
      rw [hbelow]
      gcongr
      push_cast
      linarith
    · rw [halves_div_iff]
      rw [Covers, hbelow] at hx
      convert hx using 3
      norm_num

/-- Rounding gives the number that covers the ratio. -/
theorem ofUnits?_eq_some_iff {negative : Bool} {num den : Nat} (hden : 0 < den) {x : Double} :
    ofUnits? negative num den = some x ↔ x.negative = negative ∧ x.Covers (num / den) := by
  rw [ofUnits?_eq_some_iff_halves hden]
  refine and_congr_right fun _ => ⟨?_, Covers.exists_halves⟩
  rintro ⟨e, m, he, hm, hparts⟩
  exact covers_of_halves he hm hparts

end Double

end Schematic
