import Schematic.Argument.Coercion
import Schematic.Proofs.Decimal.Literal
import Schematic.Proofs.Double.Signed

namespace Schematic

namespace Text

/-- Trimming takes blanks off both ends. -/
theorem exists_eq_append_trim (cs : List Char) :
    ∃ before after, cs = before ++ (trim cs ++ after) ∧ (∀ c ∈ before, isBlank c = true) ∧
      ∀ c ∈ after, isBlank c = true := by
  have hfront := List.takeWhile_append_dropWhile (p := isBlank) (l := cs)
  have hback := List.takeWhile_append_dropWhile (p := isBlank)
    (l := (cs.dropWhile isBlank).reverse)
  refine ⟨cs.takeWhile isBlank, ((cs.dropWhile isBlank).reverse.takeWhile isBlank).reverse, ?_,
    ?_, ?_⟩
  · rw [trim, ← List.reverse_append, hback, List.reverse_reverse, hfront]
  · exact fun c hc => List.mem_takeWhile_imp hc
  · exact fun c hc => List.mem_takeWhile_imp (List.mem_reverse.mp hc)

/-- A text without blanks is all that is left of it between blanks. -/
theorem trim_append {before cs after : List Char} (hbefore : ∀ c ∈ before, isBlank c = true)
    (hcs : cs ≠ []) (hsolid : ∀ c ∈ cs, isBlank c = false)
    (hafter : ∀ c ∈ after, isBlank c = true) : trim (before ++ (cs ++ after)) = cs := by
  have hstart : Stops isBlank (cs ++ after) :=
    stops_append (List.head?_eq_some_head hcs) (hsolid _ (List.head_mem hcs)) after
  have hend : Stops isBlank cs.reverse := by
    intro c hc
    exact hsolid c (List.mem_reverse.mp (List.mem_of_mem_head? hc))
  have hafter' : ∀ c ∈ after.reverse, isBlank c = true :=
    fun c hc => hafter c (List.mem_reverse.mp hc)
  rw [trim, dropWhile_append_stops hbefore hstart, List.reverse_append,
    dropWhile_append_stops hafter' hend, List.reverse_reverse]

end Text

namespace Decimal

/-- An integer in a text: digits after one sign or none. -/
inductive DenotesInteger : List Char → ℤ → Prop where
  | unsigned {ds : List Char} (hds : IsDigits ds) : DenotesInteger ds (valueOf ds)
  | plus {ds : List Char} (hds : IsDigits ds) : DenotesInteger ('+' :: ds) (valueOf ds)
  | minus {ds : List Char} (hds : IsDigits ds) : DenotesInteger ('-' :: ds) (-(valueOf ds : ℤ))

private theorem splitSign_of_isDigits {ds : List Char} (hds : IsDigits ds) :
    splitSign ds = (false, ds) := by
  obtain ⟨c, rest, rfl⟩ := List.exists_cons_of_ne_nil hds.nonempty
  exact splitSign_signMark false rest (hds.all c List.mem_cons_self)

theorem denotesInteger_iff {cs : List Char} {i : ℤ} :
    DenotesInteger cs i ↔
      IsDigits (splitSign cs).2 ∧ signedValue (splitSign cs).1 (splitSign cs).2 = i := by
  constructor
  · intro hi
    cases hi with
    | unsigned hds =>
      rw [splitSign_of_isDigits hds]
      exact ⟨hds, rfl⟩
    | plus hds => exact ⟨hds, rfl⟩
    | minus hds => exact ⟨hds, rfl⟩
  · rintro ⟨hds, rfl⟩
    unfold splitSign at hds ⊢
    split at hds
    · exact .minus hds
    · exact .plus hds
    · exact .unsigned hds

private theorem isBlank_of_isDigit {c : Char} (hc : isDigit c = true) : Text.isBlank c = false := by
  obtain ⟨hlow, hhigh⟩ := toNat_bounds hc
  have hranges : ∀ r ∈ Text.blankRanges, r.2 < '0'.toNat ∨ '9'.toNat < r.1 := by decide
  rw [Bool.eq_false_iff]
  intro hblank
  obtain ⟨r, hr, hfirst, hlast⟩ := Text.inRanges_iff.mp hblank
  rcases hranges r hr with hbelow | habove <;> omega

theorem DenotesInteger.solid {cs : List Char} {i : ℤ} (hi : DenotesInteger cs i) :
    cs ≠ [] ∧ ∀ c ∈ cs, Text.isBlank c = false := by
  have hdigits : ∀ {ds}, IsDigits ds → ∀ c ∈ ds, Text.isBlank c = false :=
    fun hds c hc => isBlank_of_isDigit (hds.all c hc)
  cases hi with
  | unsigned hds => exact ⟨hds.nonempty, hdigits hds⟩
  | plus hds | minus hds =>
    exact ⟨List.cons_ne_nil _ _, List.forall_mem_cons.mpr ⟨by decide, hdigits hds⟩⟩

/-- The decimal text of an integer: a minus sign if it is negative, and its digits without a zero in
front, unless it is zero. -/
def IsTextOf (i : ℤ) (cs : List Char) : Prop :=
  ∃ ds, cs = signMark (decide (i < 0)) ++ ds ∧ IsDigits ds ∧ valueOf ds = i.natAbs ∧
    (ds.head? = some '0' → ds = ['0'])

private theorem length_le_of_valueOf_eq {ds es : List Char} (hds : IsDigits ds) (hes : IsDigits es)
    (hvalue : valueOf ds = valueOf es) (hzero : es.head? = some '0' → es = ['0']) :
    es.length ≤ ds.length := by
  by_contra! hlonger
  have hsplit := eq_replicate_append_of_valueOf_eq hlonger.le hds.all hes.all hvalue
  obtain ⟨k, hk⟩ : ∃ k, es.length - ds.length = k + 1 := ⟨es.length - ds.length - 1, by omega⟩
  rw [hk, List.replicate_succ, List.cons_append] at hsplit
  have hone := congrArg List.length (hzero (by rw [hsplit]; rfl))
  have hpos := List.length_pos_iff.mpr hds.nonempty
  rw [List.length_singleton] at hone
  omega

/-- Digits of one value without a zero in front are the same. -/
theorem eq_of_valueOf_eq_of_head? {ds es : List Char} (hds : IsDigits ds) (hes : IsDigits es)
    (hvalue : valueOf ds = valueOf es) (hzero : ds.head? = some '0' → ds = ['0'])
    (hzero' : es.head? = some '0' → es = ['0']) : ds = es := by
  have hlength : ds.length = es.length := by
    apply le_antisymm
    · exact length_le_of_valueOf_eq hes hds hvalue.symm hzero
    · exact length_le_of_valueOf_eq hds hes hvalue hzero'
  exact eq_of_valueOf_eq hlength hds.all hes.all hvalue

theorem eq_integer_iff {i : ℤ} {s : String} : s = integer i ↔ IsTextOf i s.toList := by
  rw [← String.toList_inj, toList_integer]
  constructor
  · intro hs
    exact ⟨_, hs, isDigits_digits _, valueOf_digits _, digits_eq_zero_of_head?⟩
  · rintro ⟨ds, hs, hds, hvalue, hzero⟩
    rw [hs, eq_of_valueOf_eq_of_head? hds (isDigits_digits _) (hvalue.trans (valueOf_digits _).symm)
      hzero digits_eq_zero_of_head?]

end Decimal

namespace Argument

open Decimal (DenotesInteger IsTextOf signedValue valueOf)
open Double (towardZero)

/-- The integer that a value stands for. Numbers are taken without their fraction if they are below
the bound, texts if blanks alone stand around an integer within the bounds, and true is one. -/
inductive StandsFor : Json → ℤ → Prop where
  | integer (i : Json.Integer) : StandsFor (.number (.integer i)) i.val
  | double {x : Double} (hbound : |x.value| < 2 ^ 127) :
    StandsFor (.number (.double x)) (towardZero x.value)
  | text {s : String} {before cs after : List Char} {i : ℤ}
    (hs : s.toList = before ++ (cs ++ after)) (hbefore : ∀ c ∈ before, Text.isBlank c = true)
    (hafter : ∀ c ∈ after, Text.isBlank c = true) (hcs : DenotesInteger cs i)
    (hlow : -2 ^ 127 ≤ i) (hhigh : i ≤ 2 ^ 127 - 1) : StandsFor (.string s) i
  | true : StandsFor (.bool true) 1

private theorem integerBound_eq : integerBound = 2 ^ 127 := by
  decide

/-- Digits are read within the bounds of integers, which are not the same on both sides of zero. -/
theorem integerText?_eq_some_iff {cs : List Char} {i : ℤ} :
    integerText? cs = some i ↔ DenotesInteger cs i ∧ -2 ^ 127 ≤ i ∧ i ≤ 2 ^ 127 - 1 := by
  rw [Decimal.denotesInteger_iff, integerText?, and_assoc]
  generalize Decimal.splitSign cs = signed
  obtain ⟨negative, ds⟩ := signed
  have hdigits : (ds ≠ [] ∧ ds.all Decimal.isDigit = true) ↔ Decimal.IsDigits ds := by
    rw [List.all_eq_true]
    exact ⟨fun h => ⟨h.1, h.2⟩, fun h => ⟨h.nonempty, h.all⟩⟩
  rw [Option.ite_none_right_eq_some, hdigits]
  refine and_congr_right fun _ => ?_
  cases negative with
  | true =>
    rw [if_pos rfl, Option.map_eq_some_iff]
    simp only [Decimal.valueUpTo?_eq_some_iff, integerBound_eq, signedValue, if_true]
    constructor
    · rintro ⟨n, ⟨rfl, hn⟩, rfl⟩
      exact ⟨rfl, by omega, by omega⟩
    · rintro ⟨rfl, hlow, -⟩
      exact ⟨_, ⟨rfl, by omega⟩, rfl⟩
  | false =>
    rw [if_neg Bool.false_ne_true, Option.map_eq_some_iff]
    simp only [Decimal.valueUpTo?_eq_some_iff, integerBound_eq, signedValue, Bool.false_eq_true,
      if_false]
    constructor
    · rintro ⟨n, ⟨rfl, hn⟩, rfl⟩
      exact ⟨rfl, by omega, by omega⟩
    · rintro ⟨rfl, -, hhigh⟩
      exact ⟨_, ⟨rfl, by omega⟩, rfl⟩

theorem toInteger?_string_eq_some_iff {s : String} {i : ℤ} :
    toInteger? (.string s) = some i ↔ StandsFor (.string s) i := by
  rw [toInteger?, integerText?_eq_some_iff]
  constructor
  · rintro ⟨hi, hlow, hhigh⟩
    obtain ⟨before, after, hs, hbefore, hafter⟩ := Text.exists_eq_append_trim s.toList
    exact .text hs hbefore hafter hi hlow hhigh
  · intro hi
    cases hi with
    | text hs hbefore hafter hi hlow hhigh =>
      obtain ⟨hne, hsolid⟩ := hi.solid
      rw [hs, Text.trim_append hbefore hne hsolid hafter]
      exact ⟨hi, hlow, hhigh⟩

theorem toInteger?_double_eq_some_iff {x : Double} {i : ℤ} :
    toInteger? (.number (.double x)) = some i ↔ StandsFor (.number (.double x)) i := by
  have hbound : x.units < integerBound * Double.unitsPerOne ↔ |x.value| < 2 ^ 127 := by
    rw [← Double.abs_value_lt_iff, integerBound_eq]
    norm_cast
  rw [toInteger?, Option.ite_none_right_eq_some, hbound, Option.some_inj,
    Double.truncate_eq_towardZero]
  constructor
  · rintro ⟨hless, rfl⟩
    exact .double hless
  · intro hi
    cases hi with
    | double hless => exact ⟨hless, rfl⟩

theorem toInteger?_eq_some_iff {v : Json} {i : ℤ} : toInteger? v = some i ↔ StandsFor v i := by
  cases v with
  | null | array | object => exact iff_of_false (by rintro ⟨⟩) (by rintro ⟨⟩)
  | bool b =>
    cases b with
    | true =>
      constructor
      · rintro ⟨⟩
        exact .true
      · rintro ⟨⟩
        rfl
    | false => exact iff_of_false (by rintro ⟨⟩) (by rintro ⟨⟩)
  | number n =>
    cases n with
    | integer k =>
      constructor
      · rintro ⟨⟩
        exact .integer k
      · rintro ⟨⟩
        rfl
    | double x => exact toInteger?_double_eq_some_iff
  | string s => exact toInteger?_string_eq_some_iff

theorem StandsFor.bounds {v : Json} {i : ℤ} (hi : StandsFor v i) :
    -2 ^ 127 ≤ i ∧ i ≤ 2 ^ 127 - 1 := by
  cases hi with
  | integer k =>
    have hlower := k.lower
    have hupper := k.upper
    omega
  | @double x hbound =>
    have hless : |(towardZero x.value : ℚ)| < 2 ^ 127 :=
      (Double.abs_towardZero_le _).trans_lt hbound
    have hlimits : |towardZero x.value| < 2 ^ 127 := by exact_mod_cast hless
    rw [abs_lt] at hlimits
    omega
  | text _ _ _ _ hlow hhigh => exact ⟨hlow, hhigh⟩
  | true => omega

/-- Integers are taken exactly from numbers and texts: a value is read as an integer exactly when it
stands for it, which 128 bits with a sign then hold, and what is written is its decimal text. -/
theorem toInteger?_exact (v : Json) :
    (∀ i, toInteger? v = some i ↔ StandsFor v i) ∧
      (∀ i, StandsFor v i → -2 ^ 127 ≤ i ∧ i ≤ 2 ^ 127 - 1) ∧
      ∀ text, literal? .int v = some text ↔ ∃ i, StandsFor v i ∧ IsTextOf i text.toList := by
  refine ⟨fun i => toInteger?_eq_some_iff, fun i hi => hi.bounds, ?_⟩
  intro text
  simp only [literal?, Option.map_eq_some_iff, toInteger?_eq_some_iff, ← Decimal.eq_integer_iff,
    eq_comm (b := text)]

example :
    toInteger? (.string " +00170141183460469231731687303715884105727\n") =
        some 170141183460469231731687303715884105727 ∧
      toInteger? (.string "-170141183460469231731687303715884105728") =
        some (-170141183460469231731687303715884105728) ∧
      toInteger? (.string "170141183460469231731687303715884105728") = none := by
  decide +kernel

end Argument

end Schematic
