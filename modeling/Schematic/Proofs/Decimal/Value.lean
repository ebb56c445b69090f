import Mathlib.Data.Nat.Digits.Lemmas
import Schematic.Decimal.Reader

namespace Schematic.Decimal

/-- The number that a digit stands for. -/
def digitValue (d : Char) : Nat :=
  d.toNat - '0'.toNat

theorem toNat_bounds {d : Char} (hd : isDigit d = true) :
    '0'.toNat ≤ d.toNat ∧ d.toNat ≤ '9'.toNat := by
  simp only [isDigit, Bool.and_eq_true, decide_eq_true_eq, Char.le_def,
    UInt32.le_iff_toNat_le] at hd
  exact hd

private theorem digitValue_lt {d : Char} (hd : isDigit d = true) : digitValue d < 10 := by
  obtain ⟨hlow, hhigh⟩ := toNat_bounds hd
  change d.toNat - 48 < 10
  change d.toNat ≤ 57 at hhigh
  omega

private theorem ofNat_digitValue {d : Char} (hd : isDigit d = true) :
    Char.ofNat (digitValue d + '0'.toNat) = d := by
  have hsum : digitValue d + '0'.toNat = d.toNat := Nat.sub_add_cancel (toNat_bounds hd).1
  rw [hsum, Char.ofNat_toNat]

/-- The value of digits, from the last to the first. -/
theorem valueOf_eq_ofDigits (ds : List Char) :
    valueOf ds = Nat.ofDigits 10 (ds.reverse.map digitValue) := by
  induction ds using List.reverseRecOn with
  | nil => rfl
  | append_singleton ds d ih =>
    rw [List.reverse_append, List.reverse_singleton, List.singleton_append, List.map_cons,
      Nat.ofDigits_cons, ← ih, valueOf, List.foldl_append, Nat.add_comm]
    rfl

theorem valueOf_replicate_append (k : Nat) (ds : List Char) :
    valueOf (List.replicate k '0' ++ ds) = valueOf ds := by
  rw [valueOf_eq_ofDigits, valueOf_eq_ofDigits, List.reverse_append, List.map_append,
    List.reverse_replicate, List.map_replicate]
  exact Nat.ofDigits_append_replicate_zero _

private theorem digitValues_lt {ds : List Char} (hds : ∀ d ∈ ds, isDigit d = true) :
    ∀ v ∈ ds.reverse.map digitValue, v < 10 := by
  intro v hv
  obtain ⟨d, hd, rfl⟩ := List.mem_map.mp hv
  exact digitValue_lt (hds d (List.mem_reverse.mp hd))

theorem valueOf_lt {ds : List Char} (hds : ∀ d ∈ ds, isDigit d = true) :
    valueOf ds < 10 ^ ds.length := by
  have hlt := Nat.ofDigits_lt_base_pow_length (by decide) (digitValues_lt hds)
  rwa [← valueOf_eq_ofDigits, List.length_map, List.length_reverse] at hlt

/-- As many digits of the same value are the same digits. -/
theorem eq_of_valueOf_eq {ds es : List Char} (hlength : ds.length = es.length)
    (hds : ∀ d ∈ ds, isDigit d = true) (hes : ∀ d ∈ es, isDigit d = true)
    (hvalue : valueOf ds = valueOf es) : ds = es := by
  rw [valueOf_eq_ofDigits, valueOf_eq_ofDigits] at hvalue
  have hvalues := Nat.ofDigits_inj_of_len_eq (by decide) (by simpa using hlength)
    (digitValues_lt hds) (digitValues_lt hes) hvalue
  rw [List.map_reverse, List.map_reverse, List.reverse_inj] at hvalues
  have hback : ∀ cs : List Char, (∀ d ∈ cs, isDigit d = true) →
      (cs.map digitValue).map (fun v => Char.ofNat (v + '0'.toNat)) = cs := by
    intro cs hcs
    rw [List.map_map]
    exact (List.map_congr_left fun d hd => ofNat_digitValue (hcs d hd)).trans (List.map_id cs)
  rw [← hback ds hds, hvalues, hback es hes]

theorem eq_replicate_append_of_valueOf_eq {ds es : List Char} (hlength : ds.length ≤ es.length)
    (hds : ∀ d ∈ ds, isDigit d = true) (hes : ∀ d ∈ es, isDigit d = true)
    (hvalue : valueOf ds = valueOf es) :
    es = List.replicate (es.length - ds.length) '0' ++ ds := by
  apply eq_of_valueOf_eq
  · rw [List.length_append, List.length_replicate]
    omega
  · exact hes
  · intro d hd
    rcases List.mem_append.mp hd with hd | hd
    · rw [List.eq_of_mem_replicate hd]
      rfl
    · exact hds d hd
  · rw [valueOf_replicate_append, hvalue]

/-- Digits have one value exactly when they agree apart from zeros in front. -/
theorem valueOf_eq_iff {ds es : List Char} (hds : ∀ d ∈ ds, isDigit d = true)
    (hes : ∀ d ∈ es, isDigit d = true) :
    valueOf ds = valueOf es ↔ ∃ core k l, ds = List.replicate k '0' ++ core ∧
      es = List.replicate l '0' ++ core := by
  constructor
  · intro hvalue
    rcases Nat.le_total ds.length es.length with hle | hle
    · exact ⟨ds, 0, _, rfl, eq_replicate_append_of_valueOf_eq hle hds hes hvalue⟩
    · exact ⟨es, _, 0, eq_replicate_append_of_valueOf_eq hle hes hds hvalue.symm, rfl⟩
  · intro hagree
    obtain ⟨core, k, l, rfl, rfl⟩ := hagree
    rw [valueOf_replicate_append, valueOf_replicate_append]

/-- The number that digits make after those of another number. -/
def valueAfter (n : Nat) (ds : List Char) : Nat :=
  ds.foldl (fun n d => 10 * n + digitValue d) n

theorem valueAfter_cons (n : Nat) (d : Char) (ds : List Char) :
    valueAfter n (d :: ds) = valueAfter (10 * n + digitValue d) ds := by
  rw [valueAfter, List.foldl_cons, valueAfter]

/-- A number does not get smaller when digits are put after it. -/
theorem le_valueAfter (n : Nat) (ds : List Char) : n ≤ valueAfter n ds := by
  induction ds generalizing n with
  | nil => exact le_rfl
  | cons d ds ih =>
    have hrest := ih (10 * n + digitValue d)
    rw [valueAfter_cons]
    omega

private theorem appendDigit?_of_le {most n : Nat} {d : Char}
    (hnext : 10 * n + digitValue d ≤ most) :
    appendDigit? most n d = some (10 * n + digitValue d) :=
  if_pos hnext

private theorem appendDigit?_of_gt {most n : Nat} {d : Char}
    (hnext : most < 10 * n + digitValue d) :
    appendDigit? most n d = none :=
  if_neg hnext.not_ge

theorem foldlM_appendDigit?_eq_some_iff {most n v : Nat} {ds : List Char} (hn : n ≤ most) :
    ds.foldlM (appendDigit? most) n = some v ↔ valueAfter n ds = v ∧ v ≤ most := by
  induction ds generalizing n with
  | nil =>
    rw [List.foldlM_nil, Option.pure_def, Option.some_inj]
    constructor
    · rintro rfl
      exact ⟨rfl, hn⟩
    · exact And.left
  | cons d ds ih =>
    rw [List.foldlM_cons, valueAfter_cons]
    rcases le_or_gt (10 * n + digitValue d) most with hnext | hnext
    · rw [appendDigit?_of_le hnext]
      exact ih hnext
    · rw [appendDigit?_of_gt hnext]
      refine iff_of_false (by rintro ⟨⟩) ?_
      -- What is too much already stays so, whatever digits follow.
      rintro ⟨rfl, hbound⟩
      exact absurd ((le_valueAfter _ ds).trans hbound) hnext.not_ge

theorem valueUpTo?_eq_some_iff {most v : Nat} {ds : List Char} :
    valueUpTo? most ds = some v ↔ valueOf ds = v ∧ v ≤ most :=
  foldlM_appendDigit?_eq_some_iff (Nat.zero_le most)

end Schematic.Decimal
