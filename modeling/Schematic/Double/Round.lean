import Schematic.Double.Basic

namespace Schematic

/-- The whole number nearest to `num / den`; a half goes to the even one. -/
def roundHalfEven (num den : Nat) : Nat :=
  let q := num / den
  let r := num % den
  if 2 * r < den then q
  else if den < 2 * r then q + 1
  else if q % 2 = 0 then q else q + 1

namespace Double

/-- The exponent at which `n` whole units fill at most 53 bits. -/
def exponentFor (n : Nat) : Nat :=
  Nat.log2 n - 52

/-- The number nearest to `num / den` units; none if that is beyond the largest number. A
significand that rounds up to `2^53` moves to the next exponent. -/
def ofUnits? (negative : Bool) (num den : Nat) : Option Double :=
  let e := exponentFor (num / den)
  let m := roundHalfEven num (den * Nat.pow 2 e)
  if m = 0x20000000000000 then ofParts? negative 0x10000000000000 (e + 1) else ofParts? negative m e

/-- The number nearest to the value `num / den`. -/
def ofRatio? (negative : Bool) (num den : Nat) : Option Double :=
  ofUnits? negative (num * unitsPerOne) den

def ofInt? (i : Int) : Option Double :=
  ofRatio? (i < 0) i.natAbs 1

/-- The exact product, rounded once. -/
def mul? (x y : Double) : Option Double :=
  ofUnits? (x.negative != y.negative) (x.units * y.units) unitsPerOne

/-- The exact quotient, rounded once; none also for a zero divisor. -/
def div? (x y : Double) : Option Double :=
  if y.units = 0 then none
  else ofUnits? (x.negative != y.negative) (x.units * unitsPerOne) y.units

/-- The number nearest to a power of ten. -/
def powTen? (k : Nat) : Option Double :=
  ofRatio? false (Nat.pow 10 k) 1

end Double

end Schematic
