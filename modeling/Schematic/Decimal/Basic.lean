import Schematic.Double.Round

namespace Schematic

/-- The value `coefficient · 10^exponent`. -/
structure Decimal where
  coefficient : Nat
  exponent : Int
deriving DecidableEq, Repr

namespace Decimal

/-- The decimal digits of a natural number, without leading zeros. -/
def digits (n : Nat) : List Char :=
  Nat.toDigits 10 n

/-- The text of a natural number. -/
def natural (n : Nat) : String :=
  String.ofList (digits n)

/-- The text of an integer: a minus sign for a negative one, and no plus sign. -/
def integer (i : Int) : String :=
  if i < 0 then "-" ++ natural i.natAbs else natural i.natAbs

/-- The number that a run of digits denotes; leading zeros do not matter. -/
def valueOf (ds : List Char) : Nat :=
  ds.foldl (fun n c => 10 * n + (c.toNat - '0'.toNat)) 0

/-- The exponent of the leading digit. -/
def magnitude (d : Decimal) : Int :=
  d.exponent + (digits d.coefficient).length - 1

/-- The nearest binary64 number, or none beyond the largest one. A decimal of `10^309` or more is
beyond it and one below `10^-324` rounds to zero, so no power of ten larger than the range of the
format is ever computed. -/
def toDouble? (negative : Bool) (d : Decimal) : Option Double :=
  if d.coefficient = 0 then some (.zero negative)
  else if 309 ≤ d.magnitude then none
  else if d.magnitude < -324 then some (.zero negative)
  else
    Double.ofRatio? negative (d.coefficient * Nat.pow 10 d.exponent.toNat)
      (Nat.pow 10 (-d.exponent).toNat)

end Decimal

end Schematic
