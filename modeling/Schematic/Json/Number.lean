import Schematic.Decimal.Layout

namespace Schematic.Json

/-- A whole number that 64 bits can hold, with a sign bit or without one. -/
structure Integer where
  val : Int
  lower : -0x8000000000000000 ≤ val
  upper : val < 0x10000000000000000
deriving DecidableEq

/-- A number is kept as it was written: `1` and `1.0` are different numbers of equal value. -/
inductive Number where
  | integer (i : Integer)
  | double (x : Double)
deriving DecidableEq

/-- Numbers with a fraction or an exponent are written positionally if their leading digit has an
exponent from -5 to 15, and with an exponent otherwise; a tie goes to the even digit. -/
def doubleLayout : Decimal.Layout :=
  { least := -5, greatest := 15, exponentWidth := 1, tie := .even }

namespace Integer

def ofInt? (i : Int) : Option Integer :=
  if h : -0x8000000000000000 ≤ i ∧ i < 0x10000000000000000 then some ⟨i, h.1, h.2⟩ else none

end Integer

namespace Number

/-- The nearest binary64 number. -/
def toDouble? : Number → Option Double
  | integer i => Double.ofInt? i.val
  | double x => some x

def isZero : Number → Bool
  | integer i => i.val == 0
  | double x => x.isZero

def text : Number → String
  | integer i => Decimal.integer i.val
  | double x => doubleLayout.write x

end Number

end Schematic.Json
