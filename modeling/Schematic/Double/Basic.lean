namespace Schematic

/-- A finite binary64 number. The fields are canonical: a significand below `2^52` comes only with
the least exponent, so two numbers are the same exactly if their fields are, and the two zeros
differ by their sign. -/
structure Double where
  negative : Bool
  significand : Nat
  exponent : Nat
  /-- At most 53 bits. -/
  significand_lt : significand < 0x20000000000000
  exponent_le : exponent ≤ 2045
  /-- At least 53 bits, but for the least exponent. -/
  normal : exponent = 0 ∨ 0x10000000000000 ≤ significand
deriving DecidableEq

namespace Double

/-- The number of units that make one. -/
def unitsPerOne : Nat := Nat.pow 2 1074

/-- The magnitude, in units. -/
def units (x : Double) : Nat :=
  x.significand * Nat.pow 2 x.exponent

/-- The value with its sign, in units. Both zeros have the value zero. -/
def scaled (x : Double) : Int :=
  if x.negative then -(x.units : Int) else x.units

def zero (negative : Bool) : Double :=
  ⟨negative, 0, 0, by decide, by decide, .inl rfl⟩

def one : Double :=
  ⟨false, 0x10000000000000, 1022, by decide, by decide, .inr (by decide)⟩

/-- Equality of values, under which the two zeros are equal. -/
def sameValue (x y : Double) : Bool :=
  x.scaled == y.scaled

def isZero (x : Double) : Bool :=
  x.significand == 0

/-- The number with the given fields, if they are canonical and in range. -/
def ofParts? (negative : Bool) (significand exponent : Nat) : Option Double :=
  if h : significand < 0x20000000000000 ∧ exponent ≤ 2045 ∧
      (exponent = 0 ∨ 0x10000000000000 ≤ significand) then
    some ⟨negative, significand, exponent, h.1, h.2.1, h.2.2⟩
  else
    none

/-- The value without its fraction. -/
def truncate (x : Double) : Int :=
  if x.negative then -((x.units / unitsPerOne : Nat) : Int) else (x.units / unitsPerOne : Nat)

theorem sameValue_iff {x y : Double} : x.sameValue y = true ↔ x.scaled = y.scaled := by
  simp [sameValue]

theorem sameValue_refl (x : Double) : x.sameValue x = true := by
  simp [sameValue]

theorem sameValue_comm (x y : Double) : x.sameValue y = y.sameValue x := by
  rw [Bool.eq_iff_iff, sameValue_iff, sameValue_iff]
  exact eq_comm

theorem ofParts?_fields (x : Double) : ofParts? x.negative x.significand x.exponent = some x :=
  dif_pos ⟨x.significand_lt, x.exponent_le, x.normal⟩

end Double

end Schematic
