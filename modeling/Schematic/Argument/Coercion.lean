import Schematic.Argument.Equality
import Schematic.Decimal.Reader
import Schematic.Text.Characters

namespace Schematic

namespace Argument

/-- Numbers in emitted text are written positionally if their leading digit has an exponent from -4
to 15, and otherwise with a signed exponent of two or more digits; a tie goes up. -/
def floatLayout : Decimal.Layout :=
  { least := -4, greatest := 15, exponentWidth := 2, tie := .up }

def floatText (x : Double) : String :=
  floatLayout.write x

/-- The text of anything a literal reads as. -/
def readingText : Reading → String
  | .finite x => floatText x
  | .infinite true => "-inf"
  | .infinite false => "inf"
  | .notANumber => "NaN"

/-- Two to the power of 127: integers are kept in 128 bits with a sign. -/
def integerBound : Nat := 0x80000000000000000000000000000000

/-- An optional sign and one or more digits, within the bounds of integers. -/
def integerText? (cs : List Char) : Option Int :=
  let (negative, ds) := Decimal.splitSign cs
  if ds ≠ [] ∧ ds.all Decimal.isDigit then
    if negative then (Decimal.valueUpTo? integerBound ds).map fun (n : Nat) => -(n : Int)
    else (Decimal.valueUpTo? (integerBound - 1) ds).map fun (n : Nat) => (n : Int)
  else none

/-- An integer: numbers lose their fraction, texts are read, and true is one. -/
def toInteger? : Json → Option Int
  | .number (.integer i) => some i.val
  | .number (.double x) =>
    if x.units < integerBound * Double.unitsPerOne then some x.truncate else none
  | .string s => integerText? (Text.trim s.toList)
  | .bool true => some 1
  | _ => none

/-- A finite number: integers are rounded, texts are read, and the truth values are one and zero. -/
def toDouble? : Json → Option Double
  | .number n => n.toDouble?
  | .string s =>
    match Decimal.read? (Text.trim s.toList) with
    | some (.finite x) => some x
    | _ => none
  | .bool true => some .one
  | .bool false => some (.zero false)
  | _ => none

/-- A pair of finite numbers. -/
def toRange? : Json → Option (Double × Double)
  | .array [a, b] => do return (← toDouble? a, ← toDouble? b)
  | _ => none

/-- The literal of a value under a kind, if the kind is supported and takes the value. -/
def literal? : ArgumentKind → Json → Option String
  | .int, v => (toInteger? v).map Decimal.integer
  | .float, v => (toDouble? v).map floatText
  | .range, v => (toRange? v).map fun (a, b) => "(" ++ floatText a ++ ", " ++ floatText b ++ ")"
  | _, _ => none

end Argument

end Schematic
