import Schematic.Decimal.Basic

namespace Schematic

/-- What a literal reads as: the infinities also stand for magnitudes beyond the largest number. -/
inductive Reading where
  | finite (x : Double)
  | infinite (negative : Bool)
  | notANumber
deriving DecidableEq

namespace Decimal

/-- ASCII digits only. -/
def isDigit (c : Char) : Bool :=
  '0' ≤ c && c ≤ '9'

/-- Puts a digit after a number, unless that is more than `most`. -/
def appendDigit? (most n : Nat) (d : Char) : Option Nat :=
  let next := 10 * n + (d.toNat - '0'.toNat)
  if next ≤ most then some next else none

/-- The number that a run of digits denotes, read one digit after the other; none as soon as it is
more than `most`. -/
def valueUpTo? (most : Nat) (ds : List Char) : Option Nat :=
  ds.foldlM (appendDigit? most) 0

def lowerCase (c : Char) : Char :=
  if 'A' ≤ c ∧ c ≤ 'Z' then Char.ofNat (c.toNat + 32) else c

/-- A sign, plus by default, and what follows it. -/
def splitSign : List Char → Bool × List Char
  | '-' :: rest => (true, rest)
  | '+' :: rest => (false, rest)
  | rest => (false, rest)

/-- The exponent part: nothing, or a mark, an optional sign and one or more digits. -/
def exponentPart? : List Char → Option Int
  | [] => some 0
  | mark :: rest =>
    if mark = 'e' ∨ mark = 'E' then
      let (negative, ds) := splitSign rest
      if ds ≠ [] ∧ ds.all isDigit then
        some (if negative then -(valueOf ds : Int) else valueOf ds)
      else none
    else none

/-- Digits, an optional point with more digits, and an optional exponent; at least one digit stands
on one side of the point. -/
def ofChars? (cs : List Char) : Option Decimal :=
  let whole := cs.takeWhile isDigit
  let afterWhole := cs.dropWhile isDigit
  let (fraction, afterFraction) := match afterWhole with
    | '.' :: rest => (rest.takeWhile isDigit, rest.dropWhile isDigit)
    | rest => ([], rest)
  if whole = [] ∧ fraction = [] then none
  else
    (exponentPart? afterFraction).map fun e =>
      ⟨valueOf (whole ++ fraction), e - fraction.length⟩

/-- Reads a whole text as a literal. -/
def read? (cs : List Char) : Option Reading :=
  let (negative, body) := splitSign cs
  let word := String.ofList (body.map lowerCase)
  if word = "inf" ∨ word = "infinity" then some (.infinite negative)
  else if word = "nan" then some .notANumber
  else
    (ofChars? body).map fun d =>
      match d.toDouble? negative with
      | some x => .finite x
      | none => .infinite negative

end Decimal

end Schematic
