import Schematic.Netlist.Basic

namespace Schematic

namespace Json.Number

/-- Two integers are compared exactly; with another number an integer is first rounded. -/
def sameValue : Number → Number → Bool
  | integer i, integer j => i.val == j.val
  | integer i, double y => (Double.ofInt? i.val).any (·.sameValue y)
  | double x, integer j => (Double.ofInt? j.val).any (x.sameValue ·)
  | double x, double y => x.sameValue y

/-- One for true and zero for false. -/
def ofBool (b : Bool) : Number :=
  integer ⟨if b then 1 else 0, by cases b <;> decide, by cases b <;> decide⟩

end Json.Number

namespace Json

mutual

/-- Equality of argument values. -/
def sameValue : Json → Json → Bool
  | null, null => true
  | bool a, bool b => a == b
  | bool a, number n => n.sameValue (.ofBool a)
  | number n, bool b => n.sameValue (.ofBool b)
  | number m, number n => m.sameValue n
  | string s, string t => s == t
  | array xs, array ys => sameItems xs ys
  | object xs, object ys => xs.length == ys.length && sameFields xs ys
  | _, _ => false

/-- Items are equal one by one. -/
def sameItems : List Json → List Json → Bool
  | [], [] => true
  | x :: xs, y :: ys => x.sameValue y && sameItems xs ys
  | _, _ => false

/-- Every field has an equal one under its key. -/
def sameFields : List (String × Json) → List (String × Json) → Bool
  | [], _ => true
  | (k, x) :: rest, ys =>
    (match ys.lookup k with
      | some y => x.sameValue y
      | none => false) && sameFields rest ys

end

/-- Equality where a value may be missing. -/
def sameOptional : Option Json → Option Json → Bool
  | none, none => true
  | some x, some y => x.sameValue y
  | _, _ => false

/-- Null, false, zero and what is empty count as not set. -/
def isTruthy : Json → Bool
  | null => false
  | bool b => b
  | number n => !n.isZero
  | string s => !s.isEmpty
  | array xs => !xs.isEmpty
  | object fields => !fields.isEmpty

/-- A null counts as missing. -/
def present : Option Json → Option Json
  | some null => none
  | j => j

end Json

namespace Argument

/-- The value to be written out: one that is set and differs from the default. -/
def explicit? (a : Argument) : Option Json :=
  match Json.present a.value with
  | some v =>
    if v.isTruthy && !Json.sameOptional (Json.present a.default) (some v) then some v else none
  | none => none

/-- Whether the argument is written out. -/
def isExplicit (a : Argument) : Bool :=
  a.explicit?.isSome

end Argument

end Schematic
