import Schematic.Decimal.Basic

namespace Schematic.Decimal

/-- Which neighbour to take if the value lies exactly between two. -/
inductive Tie where
  | up
  | even
deriving DecidableEq, Repr

/-- The reals that round to a positive number, in quarters of a unit. -/
structure Interval where
  low : Nat
  value : Nat
  high : Nat
  closed : Bool

/-- The ends are the midpoints to the neighbours; the lower neighbour is half as far away where the
significand is the least of its exponent. The ends round to the number iff its significand is
even. -/
def Interval.of (x : Double) : Interval :=
  let step := Nat.pow 2 x.exponent
  let below := if x.significand = 0x10000000000000 ∧ 0 < x.exponent then 1 else 2
  { low := (4 * x.significand - below) * step
    value := 4 * x.significand * step
    high := (4 * x.significand + 2) * step
    closed := x.significand % 2 == 0 }

/-- The number of quarter units that make one. -/
def quartersPerOne : Nat := 4 * Double.unitsPerOne

/-- The exponent of the leading digit of the positive value `num / den`. -/
def leading (num den : Nat) : Int :=
  if den ≤ num then (digits (num / den)).length - 1
  else -((digits ((den - 1) / num)).length : Int)

/-- The multiple of `10^k` to write for the interval's value, if one of the two neighbours lies in
the interval. -/
def Interval.onGrid? (i : Interval) (tie : Tie) (k : Int) : Option Nat :=
  let point := quartersPerOne * Nat.pow 10 k.toNat
  let bound := Nat.pow 10 (-k).toNat
  let inside (c : Nat) : Bool :=
    if i.closed then i.low * bound ≤ c * point && c * point ≤ i.high * bound
    else i.low * bound < c * point && c * point < i.high * bound
  let down := i.value * bound / point
  let up := down + 1
  match inside down, inside up with
  | false, false => none
  | true, false => some down
  | false, true => some up
  | true, true =>
    if 2 * i.value * bound < (2 * down + 1) * point then some down
    else if (2 * down + 1) * point < 2 * i.value * bound then some up
    else
      match tie with
      | .up => some up
      | .even => if down % 2 = 0 then some down else some up

/-- The shortest decimal of a number's magnitude. Seventeen digits always suffice. A neighbour that
carries over to the next power of ten is written with one digit. -/
def shortest (tie : Tie) (x : Double) : Decimal :=
  if x.isZero then ⟨0, 0⟩
  else
    let i := Interval.of x
    let top := leading i.value quartersPerOne
    let found := (List.range 17).findSome? fun (n : Nat) =>
      (i.onGrid? tie (top - n)).map fun c =>
        if c = Nat.pow 10 (n + 1) then ⟨1, top + 1⟩ else ⟨c, top - n⟩
    found.getD ⟨0, 0⟩

end Schematic.Decimal
