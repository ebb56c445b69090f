import Schematic.Argument.Coercion
import Schematic.Fault
import Schematic.Text.Characters

namespace Schematic.Argument

/-- An argument as written. -/
structure Written where
  name : String
  value : String
deriving DecidableEq, Repr

def Written.text (w : Written) : String :=
  w.name ++ "=" ++ w.value

/-- Writes an argument of a node that is set to `value`. -/
def write (node : String) (a : Argument) (value : Json) : Except Fault Written :=
  if Text.isIdentifier a.name then
    match literal? a.kind value with
    | some text => .ok ⟨a.name, text⟩
    | none => .error (.argumentValue node a.name a.kind value)
  else .error (.argumentName node a.name)

/-- The arguments that are written out, each with its value. -/
def explicits (arguments : List Argument) : List (Argument × Json) :=
  arguments.filterMap fun a => a.explicit?.map (a, ·)

/-- Writes the arguments of a node; the first that cannot be written is reported. -/
def writeAll (node : String) (arguments : List Argument) : Except Fault (List Written) :=
  (explicits arguments).mapM fun (a, v) => write node a v

end Schematic.Argument
