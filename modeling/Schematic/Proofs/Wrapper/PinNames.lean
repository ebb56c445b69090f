import Schematic.Proofs.Decimal.Value
import Schematic.Wrapper

namespace Schematic.Wrapper

/-- A name that starts with `port_` and goes on with digits only, whose value and the number after
it fit in 32 bits. -/
def IsPinName (name : String) : Prop :=
  ∃ ds : List Char, name.toList = "port_".toList ++ ds ∧ ds ≠ [] ∧
    (∀ d ∈ ds, '0' ≤ d ∧ d ≤ '9') ∧ Decimal.valueOf ds ≤ 0xfffffffe

/-- A pin name has the number after the one that its digits stand for. -/
def IsPinNumber (name : String) (number : Nat) : Prop :=
  ∃ ds : List Char, name.toList = "port_".toList ++ ds ∧ ds ≠ [] ∧
    (∀ d ∈ ds, '0' ≤ d ∧ d ≤ '9') ∧ Decimal.valueOf ds ≤ 0xfffffffe ∧
    number = Decimal.valueOf ds + 1

theorem isPinName_iff_exists {name : String} : IsPinName name ↔ ∃ n, IsPinNumber name n := by
  constructor
  · intro hname
    obtain ⟨ds, hds, hne, hdigits, hbound⟩ := hname
    exact ⟨_, ds, hds, hne, hdigits, hbound, rfl⟩
  · intro hnumber
    obtain ⟨_, ds, hds, hne, hdigits, hbound, -⟩ := hnumber
    exact ⟨ds, hds, hne, hdigits, hbound⟩

/-- The rest of a name after the start of pin names. -/
theorem isPrefixOf_pinStem_iff {cs : List Char} :
    pinStem.isPrefixOf cs = true ↔ cs = pinStem ++ cs.drop pinStem.length := by
  rw [List.isPrefixOf_iff_prefix, List.prefix_iff_eq_append, eq_comm]

theorem all_isDigit_iff {ds : List Char} :
    ds.all Decimal.isDigit = true ↔ ∀ d ∈ ds, '0' ≤ d ∧ d ≤ '9' := by
  simp [Decimal.isDigit]

/-- The number after the one that digits stand for, if 32 bits can hold both. -/
theorem valueUpTo?_bind_eq_some_iff {ds : List Char} {n : Nat} :
    ((Decimal.valueUpTo? largestNumber ds).bind fun v =>
        if v < largestNumber then some (v + 1) else none) = some n ↔
      Decimal.valueOf ds ≤ 0xfffffffe ∧ n = Decimal.valueOf ds + 1 := by
  have hlargest : largestNumber = 0xffffffff := rfl
  simp only [Option.bind_eq_some_iff, Decimal.valueUpTo?_eq_some_iff,
    Option.ite_none_right_eq_some, Option.some.injEq]
  constructor
  · rintro ⟨v, ⟨rfl, -⟩, hroom, rfl⟩
    exact ⟨by omega, rfl⟩
  · rintro ⟨hbound, rfl⟩
    exact ⟨_, ⟨rfl, by omega⟩, by omega, rfl⟩

theorem pinNumber?_eq_some_iff {name : String} {n : Nat} :
    pinNumber? name = some n ↔ IsPinNumber name n := by
  unfold pinNumber? IsPinNumber
  simp only [Option.ite_none_right_eq_some, Option.bind_eq_bind, valueUpTo?_bind_eq_some_iff,
    all_isDigit_iff]
  constructor
  · rintro ⟨hstem, ⟨hne, hdigits⟩, hbound, hn⟩
    exact ⟨_, isPrefixOf_pinStem_iff.mp hstem, hne, hdigits, hbound, hn⟩
  · rintro ⟨ds, hname, hne, hdigits, hbound, hn⟩
    have hdrop : name.toList.drop pinStem.length = ds := by
      rw [hname]
      exact List.drop_left
    refine ⟨?_, ?_⟩
    · rw [hname, List.isPrefixOf_iff_prefix]
      exact List.prefix_append _ _
    · rw [hdrop]
      exact ⟨⟨hne, hdigits⟩, hbound, hn⟩

theorem pinNumber?_isSome_iff {name : String} :
    (pinNumber? name).isSome = true ↔ IsPinName name := by
  rw [Option.isSome_iff_exists, isPinName_iff_exists]
  simp only [pinNumber?_eq_some_iff]

/-- What follows the start of a pin name: one or more digits, whose value and the number after it
fit in 32 bits. -/
def IsPinSuffix (rest : List Char) : Prop :=
  rest ≠ [] ∧ (∀ d ∈ rest, '0' ≤ d ∧ d ≤ '9') ∧ Decimal.valueOf rest ≤ 0xfffffffe

theorem isPinSuffix_replicate_append (k : Nat) (d : Char) (ds : List Char) :
    IsPinSuffix (List.replicate k '0' ++ d :: ds) ↔ IsPinSuffix (d :: ds) := by
  have hzeros : ∀ c ∈ List.replicate k '0', '0' ≤ c ∧ c ≤ '9' := by
    intro c hc
    rw [List.eq_of_mem_replicate hc]
    decide
  rw [IsPinSuffix, IsPinSuffix, List.forall_mem_append, Decimal.valueOf_replicate_append,
    and_iff_right hzeros]
  simp

theorem not_isPinSuffix_iff {rest : List Char} :
    ¬ IsPinSuffix rest ↔
      rest = [] ∨ (∃ c ∈ rest, ¬ ('0' ≤ c ∧ c ≤ '9')) ∨ 0xfffffffe < Decimal.valueOf rest := by
  rw [IsPinSuffix, not_and_or, not_and_or, not_not, not_le]
  simp only [not_forall, exists_prop]

theorem pinNumber?_stem_append_eq_some_iff {rest : List Char} {n : Nat} :
    pinNumber? (String.ofList ("port_".toList ++ rest)) = some n ↔
      IsPinSuffix rest ∧ Decimal.valueOf rest + 1 = n := by
  rw [pinNumber?_eq_some_iff, IsPinNumber, String.toList_ofList]
  constructor
  · rintro ⟨ds, hds, hne, hdigits, hbound, rfl⟩
    obtain rfl := List.append_cancel_left hds
    exact ⟨⟨hne, hdigits, hbound⟩, rfl⟩
  · rintro ⟨⟨hne, hdigits, hbound⟩, rfl⟩
    exact ⟨rest, rfl, hne, hdigits, hbound, rfl⟩

/-- Pin names are read exactly. A name has a number if it is the start of pin names and one or more
digits after it; the number is the next after the one that they stand for, and both are of 32 bits.
After that start, a name has none if nothing follows, or something else than digits, or digits of
too large a value. However many zeros stand in front of the digits, the number is the same. -/
theorem pinNumber?_exact :
    (∀ name n, pinNumber? name = some n ↔
      ∃ ds v, name.toList = "port_".toList ++ ds ∧ ds ≠ [] ∧ (∀ d ∈ ds, '0' ≤ d ∧ d ≤ '9') ∧
        Decimal.valueOf ds = v ∧ v + 1 = n ∧ v ≤ 2 ^ 32 - 2) ∧
      (∀ rest, pinNumber? (String.ofList ("port_".toList ++ rest)) = none ↔
        rest = [] ∨ (∃ c ∈ rest, ¬ ('0' ≤ c ∧ c ≤ '9')) ∨ 2 ^ 32 - 2 < Decimal.valueOf rest) ∧
      ∀ k d ds, pinNumber? (String.ofList ("port_".toList ++ (List.replicate k '0' ++ d :: ds))) =
        pinNumber? (String.ofList ("port_".toList ++ d :: ds)) := by
  refine ⟨?_, ?_, ?_⟩
  · intro name n
    rw [pinNumber?_eq_some_iff, IsPinNumber]
    constructor
    · rintro ⟨ds, hname, hne, hdigits, hbound, rfl⟩
      exact ⟨ds, _, hname, hne, hdigits, rfl, rfl, hbound⟩
    · rintro ⟨ds, v, hname, hne, hdigits, rfl, rfl, hbound⟩
      exact ⟨ds, hname, hne, hdigits, hbound, rfl⟩
  · intro rest
    refine Iff.trans ?_ not_isPinSuffix_iff
    rw [Option.eq_none_iff_forall_ne_some]
    simp only [ne_eq, pinNumber?_stem_append_eq_some_iff, not_and]
    constructor
    · intro hnone hrest
      exact hnone _ hrest rfl
    · intro hrest n h
      exact absurd h hrest
  · intro k d ds
    refine Option.ext fun n => ?_
    rw [pinNumber?_stem_append_eq_some_iff, pinNumber?_stem_append_eq_some_iff,
      isPinSuffix_replicate_append, Decimal.valueOf_replicate_append]

example : pinNumber? "port_0004294967294" = some 4294967295 ∧
    pinNumber? "port_4294967295" = none ∧ pinNumber? "port_+1" = none := by
  decide +kernel

end Schematic.Wrapper
