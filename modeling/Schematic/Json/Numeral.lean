import Schematic.Decimal.Reader
import Schematic.Json.Number

namespace Schematic.Json

/-- A literal taken apart. A written fraction has at least one digit, so an empty one is none. -/
structure Numeral where
  negative : Bool
  whole : List Char
  fraction : List Char
  /-- The sign and the digits of the exponent. -/
  exponent : Option (Bool × List Char)
deriving DecidableEq, Repr

namespace Numeral

open Decimal (isDigit valueOf splitSign)

/-- Digits without a needless leading zero. -/
def isWhole (ds : List Char) : Bool :=
  match ds with
  | [] => false
  | ['0'] => true
  | d :: _ => d != '0'

/-- The fraction and what follows it; none if a point has no digit after it. -/
def fractionPart? : List Char → Option (List Char × List Char)
  | '.' :: rest =>
    match rest.takeWhile isDigit with
    | [] => none
    | ds => some (ds, rest.dropWhile isDigit)
  | rest => some ([], rest)

/-- The exponent up to the end of the literal. -/
def exponentPart? : List Char → Option (Option (Bool × List Char))
  | [] => some none
  | mark :: rest =>
    let (negative, ds) := splitSign rest
    if (mark = 'e' ∨ mark = 'E') ∧ ds ≠ [] ∧ ds.all isDigit then some (some (negative, ds))
    else none

def ofChars? (cs : List Char) : Option Numeral := do
  let (negative, body) := match cs with
    | '-' :: rest => (true, rest)
    | rest => (false, rest)
  let whole := body.takeWhile isDigit
  guard (isWhole whole)
  let (fraction, rest) ← fractionPart? (body.dropWhile isDigit)
  let exponent ← exponentPart? rest
  return { negative, whole, fraction, exponent }

/-- Appends digits to a significand while it stays below `2^64`; gives the significand and the
digits that were left. -/
def gather (significand : Nat) : List Char → Nat × List Char
  | [] => (significand, [])
  | d :: ds =>
    let next := 10 * significand + (d.toNat - '0'.toNat)
    if next < 0x10000000000000000 then gather next ds else (significand, d :: ds)

/-- Divides by `10^308` the given number of times, which ends early at zero. -/
def divideRepeatedly (x : Double) : Nat → Option Double
  | 0 => some x
  | times + 1 =>
    if x.isZero then some x
    else do divideRepeatedly (← x.div? (← Double.powTen? 308)) times

/-- Divides by ten to the `k`, by at most `10^308` at a time. -/
def shrink (x : Double) (k : Nat) : Option Double := do
  let times := (k - 1) / 308
  (← divideRepeatedly x times).div? (← Double.powTen? (k - 308 * times))

/-- The significand times ten to the `e`; none if that is beyond the largest number. -/
def scale? (negative : Bool) (significand : Nat) (e : Int) : Option Double := do
  let x ← Double.ofInt? significand
  let magnitude ←
    if e < 0 then shrink x (-e).toNat
    else if e ≤ 308 then x.mul? (← Double.powTen? e.toNat)
    else if x.isZero then some x
    else none
  return { magnitude with negative }

/-- The bounds of a decimal exponent. -/
def clampExponent (e : Int) : Int :=
  if e < -0x80000000 then -0x80000000
  else if 0x7fffffff < e then 0x7fffffff
  else e

/-- The number with a fraction, an exponent, or too many digits for a whole one. -/
def double? (n : Numeral) : Option Double :=
  let (high, dropped) := gather 0 n.whole
  let (significand, unread) := gather high n.fraction
  let e : Int := dropped.length - (n.fraction.length - unread.length : Nat)
  match n.exponent with
  | none => scale? n.negative significand e
  | some (negative, ds) =>
    if valueOf ds < 0x80000000 then
      let written : Int := valueOf ds
      scale? n.negative significand (clampExponent (if negative then e - written else e + written))
    else if significand = 0 ∨ negative then some (.zero n.negative)
    else none

/-- The integer that the literal is, unless it has a fraction or an exponent, is a negative zero, or
needs more than 64 bits. -/
def integer? (n : Numeral) : Option Integer :=
  if n.fraction ≠ [] ∨ n.exponent ≠ none then none
  else if n.negative then
    if valueOf n.whole = 0 then none else Integer.ofInt? (-(valueOf n.whole : Int))
  else Integer.ofInt? (valueOf n.whole)

/-- The number of a literal; none if it is beyond the largest number. -/
def number? (n : Numeral) : Option Number :=
  match n.integer? with
  | some i => some (.integer i)
  | none => n.double?.map .double

end Numeral

end Schematic.Json
