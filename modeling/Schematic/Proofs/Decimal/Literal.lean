import Schematic.Decimal.Layout
import Schematic.Proofs.Decimal.Shortest
import Schematic.Proofs.Text.Separable

namespace Schematic.Decimal

open Text (Stops takeWhile_append_stops dropWhile_append_stops stops_of_head?)

/-- One or more digits. -/
structure IsDigits (cs : List Char) : Prop where
  nonempty : cs ≠ []
  all : ∀ c ∈ cs, isDigit c = true

private theorem isDigits_singleton {c : Char} (hc : isDigit c = true) : IsDigits [c] :=
  ⟨List.cons_ne_nil c [], List.forall_mem_singleton.mpr hc⟩

/-- The mark of an exponent with its sign. -/
def exponentMark (negative : Bool) : List Char :=
  ['e', if negative then '-' else '+']

/-- The number of an exponent with its sign. -/
def signedValue (negative : Bool) (ds : List Char) : ℤ :=
  if negative then -(valueOf ds : ℤ) else valueOf ds

/-- The forms of a magnitude and the decimals that they denote. In positions it has digits on both
sides of a point; otherwise it has one digit, then others after a point if there are any, and an
exponent with its sign and at least `width` digits. -/
inductive Denotes (width : Nat) : List Char → Decimal → Prop where
  | positional {whole fraction : List Char} (hwhole : IsDigits whole)
      (hfraction : IsDigits fraction) :
      Denotes width (whole ++ '.' :: fraction) ⟨valueOf (whole ++ fraction), -fraction.length⟩
  | integral {lead : Char} {exponent : List Char} (negative : Bool) (hlead : isDigit lead = true)
      (hexponent : IsDigits exponent) (hwidth : width ≤ exponent.length) :
      Denotes width (lead :: (exponentMark negative ++ exponent))
        ⟨valueOf [lead], signedValue negative exponent⟩
  | fractional {lead : Char} {fraction exponent : List Char} (negative : Bool)
      (hlead : isDigit lead = true) (hfraction : IsDigits fraction)
      (hexponent : IsDigits exponent) (hwidth : width ≤ exponent.length) :
      Denotes width (lead :: '.' :: (fraction ++ (exponentMark negative ++ exponent)))
        ⟨valueOf (lead :: fraction), signedValue negative exponent - fraction.length⟩

theorem stops_nil (kind : Char → Bool) : Stops kind [] :=
  fun _ hc => by cases hc

private theorem stops_exponentMark (negative : Bool) (rest : List Char) :
    Stops isDigit (exponentMark negative ++ rest) :=
  stops_of_head? rfl rfl

private theorem exponentPart?_mark {exponent : List Char} (negative : Bool)
    (hexponent : IsDigits exponent) :
    exponentPart? (exponentMark negative ++ exponent) = some (signedValue negative exponent) := by
  have hall : exponent ≠ [] ∧ exponent.all isDigit :=
    ⟨hexponent.nonempty, List.all_eq_true.mpr hexponent.all⟩
  cases negative with
  | true => exact if_pos hall
  | false => exact if_pos hall

/-- A literal with a point. -/
theorem ofChars?_point {whole fraction rest : List Char} (hwhole : IsDigits whole)
    (hfraction : ∀ c ∈ fraction, isDigit c = true) (hrest : Stops isDigit rest) :
    ofChars? (whole ++ '.' :: (fraction ++ rest)) =
      (exponentPart? rest).map fun e =>
        ⟨valueOf (whole ++ fraction), e - fraction.length⟩ := by
  have hpoint : Stops isDigit ('.' :: (fraction ++ rest)) := stops_of_head? rfl rfl
  unfold ofChars?
  rw [takeWhile_append_stops hwhole.all hpoint, dropWhile_append_stops hwhole.all hpoint]
  simp only [takeWhile_append_stops hfraction hrest, dropWhile_append_stops hfraction hrest,
    hwhole.nonempty, false_and, if_false]

/-- A literal without a point. -/
theorem ofChars?_mark {whole exponent : List Char} (negative : Bool) (hwhole : IsDigits whole) :
    ofChars? (whole ++ (exponentMark negative ++ exponent)) =
      (exponentPart? (exponentMark negative ++ exponent)).map fun e => ⟨valueOf whole, e⟩ := by
  have hmark := stops_exponentMark negative exponent
  unfold ofChars?
  rw [takeWhile_append_stops hwhole.all hmark, dropWhile_append_stops hwhole.all hmark]
  simp [exponentMark, hwhole.nonempty]

/-- Reading gives what a literal denotes. -/
theorem Denotes.ofChars? {width : Nat} {cs : List Char} {d : Decimal} (hd : Denotes width cs d) :
    Decimal.ofChars? cs = some d := by
  cases hd with
  | @positional whole fraction hwhole hfraction =>
    have hread := ofChars?_point hwhole hfraction.all (stops_nil isDigit)
    rw [List.append_nil] at hread
    rw [hread, exponentPart?, Option.map_some, zero_sub]
  | @integral lead exponent negative hlead hexponent =>
    rw [← List.singleton_append, ofChars?_mark negative (isDigits_singleton hlead),
      exponentPart?_mark negative hexponent, Option.map_some]
  | @fractional lead fraction exponent negative hlead hfraction hexponent =>
    rw [← List.singleton_append, ofChars?_point (isDigits_singleton hlead) hfraction.all
      (stops_exponentMark negative exponent), exponentPart?_mark negative hexponent,
      Option.map_some, List.singleton_append]

theorem isDigits_digits (n : Nat) : IsDigits (digits n) :=
  ⟨Nat.toDigits_ne_nil, fun _ hc => isDigit_of_mem_digits hc⟩

/-- Numbers are written without a zero in front. -/
theorem digits_eq_zero_of_head? {n : Nat} (hzero : (digits n).head? = some '0') :
    digits n = ['0'] := by
  by_cases hn : n = 0
  · rw [hn]
    rfl
  · obtain ⟨rest, hrest⟩ := List.head?_eq_some_iff.mp hzero
    have hlow := pow_length_digits_le hn
    have hvalue := valueOf_digits n
    have hdigits := (isDigits_digits n).all
    rw [hrest] at hlow hvalue hdigits
    have hhigh := valueOf_lt (List.forall_mem_cons.mp hdigits).2
    rw [List.length_cons, Nat.add_sub_cancel] at hlow
    have hsame : valueOf ('0' :: rest) = valueOf rest := valueOf_replicate_append 1 rest
    omega

private theorem isDigit_of_mem_replicate {k : Nat} {c : Char} (hc : c ∈ List.replicate k '0') :
    isDigit c = true := by
  rw [List.eq_of_mem_replicate hc]
  rfl

/-- Each zero at the end is a factor of ten. -/
theorem valueOf_append_replicate (ds : List Char) (k : Nat) :
    valueOf (ds ++ List.replicate k '0') = valueOf ds * 10 ^ k := by
  induction k with
  | zero => rw [List.replicate_zero, List.append_nil, Nat.pow_zero, Nat.mul_one]
  | succ k ih =>
    rw [List.replicate_succ', ← List.append_assoc, valueOf, List.foldl_append, ← valueOf, ih]
    change 10 * (valueOf ds * 10 ^ k) + 0 = valueOf ds * 10 ^ (k + 1)
    rw [pow_succ]
    ring

private theorem exists_denotes_positional {ds : List Char} (hds : IsDigits ds) (width : Nat)
    (k : ℤ) :
    ∃ d, Denotes width (positional ds (k + ds.length - 1)) d ∧ d.value = valueOf ds * 10 ^ k := by
  have hlength : 0 < ds.length := List.length_pos_of_ne_nil hds.nonempty
  unfold positional
  split
  · next hlead =>
    generalize hzeros : (-(k + ds.length - 1) - 1).toNat = zeros
    have hfraction : IsDigits (List.replicate zeros '0' ++ ds) := by
      refine ⟨by simp [hds.nonempty], ?_⟩
      rw [List.forall_mem_append]
      exact ⟨fun c => isDigit_of_mem_replicate, hds.all⟩
    refine ⟨_, .positional (isDigits_singleton (c := '0') rfl) hfraction, ?_⟩
    have hvalue : valueOf (['0'] ++ (List.replicate zeros '0' ++ ds)) = valueOf ds := by
      rw [← List.append_assoc]
      exact valueOf_replicate_append (zeros + 1) ds
    have hexponent : -((List.replicate zeros '0' ++ ds).length : ℤ) = k := by
      rw [List.length_append, List.length_replicate]
      omega
    rw [value, hvalue, hexponent]
  · next hlead =>
    dsimp only
    split
    · next hshort =>
      generalize hzeros : (k + ds.length - 1).toNat + 1 - ds.length = zeros
      have hwhole : IsDigits (ds ++ List.replicate zeros '0') := by
        refine ⟨by simp [hds.nonempty], ?_⟩
        rw [List.forall_mem_append]
        exact ⟨hds.all, fun c => isDigit_of_mem_replicate⟩
      refine ⟨_, .positional hwhole (isDigits_singleton (c := '0') rfl), ?_⟩
      have hvalue : valueOf (ds ++ List.replicate zeros '0' ++ ['0']) =
          valueOf ds * 10 ^ (zeros + 1) := by
        rw [List.append_assoc, ← List.replicate_succ', valueOf_append_replicate]
      have hexponent : k = (zeros + 1 : Nat) + -(['0'].length : ℤ) := by
        rw [List.length_singleton]
        omega
      rw [value, hvalue, hexponent, zpow_add₀ (by norm_num), zpow_natCast]
      push_cast
      ring
    · next hlong =>
      generalize hpoint : (k + ds.length - 1).toNat + 1 = point at hlong ⊢
      have hwhole : IsDigits (ds.take point) :=
        ⟨by simp [hds.nonempty]; omega, fun c hc => hds.all c (List.mem_of_mem_take hc)⟩
      have hfraction : IsDigits (ds.drop point) :=
        ⟨by simp; omega, fun c hc => hds.all c (List.mem_of_mem_drop hc)⟩
      refine ⟨_, .positional hwhole hfraction, ?_⟩
      have hexponent : -((ds.drop point).length : ℤ) = k := by
        rw [List.length_drop]
        omega
      rw [value, List.take_append_drop, hexponent]

/-- The digits of a written exponent, with zeros in front up to the width. -/
def exponentDigits (width n : Nat) : List Char :=
  List.replicate (width - (digits n).length) '0' ++ digits n

private theorem isDigits_exponentDigits (width n : Nat) : IsDigits (exponentDigits width n) := by
  refine ⟨by simp [exponentDigits, (isDigits_digits n).nonempty], ?_⟩
  rw [exponentDigits, List.forall_mem_append]
  exact ⟨fun c => isDigit_of_mem_replicate, (isDigits_digits n).all⟩

private theorem le_length_exponentDigits (width n : Nat) :
    width ≤ (exponentDigits width n).length := by
  rw [exponentDigits, List.length_append, List.length_replicate]
  omega

private theorem signedValue_exponentDigits (width : Nat) (lead : ℤ) :
    signedValue (decide (lead < 0)) (exponentDigits width lead.natAbs) = lead := by
  rw [signedValue, exponentDigits, valueOf_replicate_append, valueOf_digits]
  split
  · next hlead =>
    have := of_decide_eq_true hlead
    omega
  · next hlead =>
    have := mt decide_eq_true hlead
    omega

private theorem scientific_singleton (width : Nat) (c : Char) (lead : ℤ) :
    scientific width [c] lead =
      c :: (exponentMark (lead < 0) ++ exponentDigits width lead.natAbs) := by
  simp [scientific, exponentMark, exponentDigits]

theorem scientific_cons (width : Nat) (c d : Char) (rest : List Char) (lead : ℤ) :
    scientific width (c :: d :: rest) lead =
      c :: '.' :: (d :: rest ++ (exponentMark (lead < 0) ++ exponentDigits width lead.natAbs)) := by
  simp [scientific, exponentMark, exponentDigits]

private theorem exists_denotes_scientific {ds : List Char} (hds : IsDigits ds) (width : Nat)
    (k : ℤ) :
    ∃ d, Denotes width (scientific width ds (k + ds.length - 1)) d ∧
      d.value = valueOf ds * 10 ^ k := by
  generalize hlead : k + ds.length - 1 = lead
  have hexponent := isDigits_exponentDigits width lead.natAbs
  have hwidth := le_length_exponentDigits width lead.natAbs
  have hsigned := signedValue_exponentDigits width lead
  obtain ⟨c, rest, rfl⟩ := List.exists_cons_of_ne_nil hds.nonempty
  obtain ⟨hc, hrest⟩ := List.forall_mem_cons.mp hds.all
  cases rest with
  | nil =>
    rw [scientific_singleton]
    refine ⟨_, .integral _ hc hexponent hwidth, ?_⟩
    have hvalue : lead = k := by
      rw [List.length_singleton] at hlead
      omega
    rw [value, hsigned, hvalue]
  | cons d rest =>
    rw [scientific_cons]
    refine ⟨_, .fractional _ hc ⟨List.cons_ne_nil d rest, hrest⟩ hexponent hwidth, ?_⟩
    have hvalue : lead - ((d :: rest).length : ℤ) = k := by
      rw [List.length_cons] at hlead
      omega
    rw [value, hsigned, hvalue]

/-- What is written for the magnitude of a number has one of the forms, and denotes the value of
its shortest decimal. -/
theorem exists_denotes_magnitudeText (layout : Layout) (x : Double) :
    ∃ d, Denotes layout.exponentWidth (layout.magnitudeText x) d ∧
      d.value = (shortest layout.tie x).value := by
  generalize hd : shortest layout.tie x = d
  have hdigits := isDigits_digits d.coefficient
  have hvalue : (valueOf (digits d.coefficient) : ℚ) * 10 ^ d.exponent = d.value := by
    rw [valueOf_digits, value]
  unfold Layout.magnitudeText
  rw [hd, ← hvalue]
  dsimp only
  split
  · exact exists_denotes_positional hdigits _ d.exponent
  · exact exists_denotes_scientific hdigits _ d.exponent

/-- The mark of a negative number. -/
def signMark (negative : Bool) : List Char :=
  if negative then ['-'] else []

theorem Denotes.exists_head {width : Nat} {cs : List Char} {d : Decimal}
    (hd : Denotes width cs d) : ∃ c rest, cs = c :: rest ∧ isDigit c = true := by
  cases hd with
  | @positional whole fraction hwhole =>
    obtain ⟨c, rest, rfl⟩ := List.exists_cons_of_ne_nil hwhole.nonempty
    exact ⟨c, _, rfl, hwhole.all c List.mem_cons_self⟩
  | integral _ hlead => exact ⟨_, _, rfl, hlead⟩
  | fractional _ hlead => exact ⟨_, _, rfl, hlead⟩

theorem splitSign_signMark (negative : Bool) {c : Char} (rest : List Char)
    (hc : isDigit c = true) :
    splitSign (signMark negative ++ c :: rest) = (negative, c :: rest) := by
  cases negative with
  | true => rfl
  | false =>
    change splitSign (c :: rest) = (false, c :: rest)
    unfold splitSign
    split
    · next heq =>
      cases heq
      cases hc
    · next heq =>
      cases heq
      cases hc
    · rfl

private theorem lowerCase_of_isDigit {c : Char} (hc : isDigit c = true) : lowerCase c = c := by
  refine if_neg fun hletter => ?_
  obtain ⟨-, hhigh⟩ := toNat_bounds hc
  have hlow : 'A'.toNat ≤ c.toNat := by simpa [Char.le_def, UInt32.le_iff_toNat_le] using hletter.1
  exact absurd (hlow.trans hhigh) (by decide)

/-- What starts with a digit is none of the words. -/
theorem word_ne {c : Char} (rest : List Char) (hc : isDigit c = true) {word : String}
    (hword : word.toList.head?.any isDigit = false) :
    String.ofList ((c :: rest).map lowerCase) ≠ word := by
  rintro rfl
  rw [String.toList_ofList, List.map_cons, lowerCase_of_isDigit hc] at hword
  cases hc.symm.trans hword

/-- A literal is read as the decimal that it denotes, rounded. -/
theorem Denotes.read? {width : Nat} {cs : List Char} {d : Decimal} (hd : Denotes width cs d)
    (negative : Bool) :
    Decimal.read? (signMark negative ++ cs) =
      some ((d.toDouble? negative).elim (.infinite negative) .finite) := by
  have hread := hd.ofChars?
  obtain ⟨c, rest, rfl, hc⟩ := hd.exists_head
  have hinf : String.ofList ((c :: rest).map lowerCase) ≠ "inf" := word_ne rest hc rfl
  have hinfinity : String.ofList ((c :: rest).map lowerCase) ≠ "infinity" :=
    word_ne rest hc rfl
  have hnan : String.ofList ((c :: rest).map lowerCase) ≠ "nan" := word_ne rest hc rfl
  unfold Decimal.read?
  rw [splitSign_signMark negative rest hc]
  simp only [hinf, hinfinity, hnan, or_self, if_false, hread, Option.map_some]
  cases d.toDouble? negative <;> rfl

/-- A literal is read as the number that its value rounds to. -/
theorem Denotes.read?_eq_finite_iff {width : Nat} {cs : List Char} {d : Decimal}
    (hd : Denotes width cs d) {negative : Bool} {x : Double} :
    Decimal.read? (signMark negative ++ cs) = some (.finite x) ↔ x.Rounds negative d.value := by
  rw [hd.read?, ← toDouble?_eq_some_iff]
  cases d.toDouble? negative <;> simp

theorem toList_write (layout : Layout) (x : Double) :
    (layout.write x).toList = signMark x.negative ++ layout.magnitudeText x := by
  rw [Layout.write, String.toList_ofList, signMark]

theorem toList_integer (i : ℤ) :
    (integer i).toList = signMark (decide (i < 0)) ++ digits i.natAbs := by
  have hnatural : (natural i.natAbs).toList = digits i.natAbs := String.toList_ofList
  unfold integer
  split
  · next hneg =>
    rw [String.toList_append, hnatural, signMark, if_pos (decide_eq_true hneg)]
    rfl
  · next hpos =>
    rw [hnatural, signMark, if_neg (by simpa using hpos)]
    rfl

end Schematic.Decimal
