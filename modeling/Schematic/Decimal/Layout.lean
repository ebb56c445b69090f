import Schematic.Decimal.Shortest

namespace Schematic.Decimal

structure Layout where
  /-- The least and the greatest exponent of the leading digit that are written positionally. -/
  least : Int
  greatest : Int
  /-- The least number of digits of a written exponent. -/
  exponentWidth : Nat
  tie : Tie

/-- Digits with a point after the one of exponent zero, and at least one digit on both sides. -/
def positional (ds : List Char) (lead : Int) : List Char :=
  if lead < 0 then '0' :: '.' :: (List.replicate (-lead - 1).toNat '0' ++ ds)
  else
    let whole := lead.toNat + 1
    if ds.length ≤ whole then ds ++ List.replicate (whole - ds.length) '0' ++ ['.', '0']
    else ds.take whole ++ '.' :: ds.drop whole

/-- One digit, then the others after a point, then the exponent with its sign. -/
def scientific (width : Nat) (ds : List Char) (lead : Int) : List Char :=
  let fraction := match ds.drop 1 with
    | [] => []
    | rest => '.' :: rest
  let exponent := digits lead.natAbs
  ds.take 1 ++ fraction ++ ['e', if lead < 0 then '-' else '+'] ++
    List.replicate (width - exponent.length) '0' ++ exponent

namespace Layout

/-- The characters of the magnitude. -/
def magnitudeText (layout : Layout) (x : Double) : List Char :=
  let d := shortest layout.tie x
  let ds := digits d.coefficient
  let lead := d.magnitude
  if layout.least ≤ lead ∧ lead ≤ layout.greatest then positional ds lead
  else scientific layout.exponentWidth ds lead

/-- The text of a number. Zero keeps its sign. -/
def write (layout : Layout) (x : Double) : String :=
  String.ofList ((if x.negative then ['-'] else []) ++ layout.magnitudeText x)

end Layout

end Schematic.Decimal
