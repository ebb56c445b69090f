import Schematic.Json.Basic

namespace Schematic

/-- The declared kind of an argument. A kind that is not known is kept by its name, so that it
can be reported. -/
inductive ArgumentKind where
  | int
  | float
  | range
  | string
  | array
  | unknown (name : String)
deriving DecidableEq, Repr

namespace ArgumentKind

def ofName (name : String) : ArgumentKind :=
  if name = "int" then int
  else if name = "float" then float
  else if name = "range" then range
  else if name = "string" then string
  else if name = "array" then array
  else unknown name

def name : ArgumentKind → String
  | int => "int"
  | float => "float"
  | range => "range"
  | string => "string"
  | array => "array"
  | unknown name => name

@[simp] theorem name_ofName (s : String) : (ofName s).name = s := by
  unfold ofName
  split <;> rename_i h
  · exact h.symm
  split <;> rename_i h
  · exact h.symm
  split <;> rename_i h
  · exact h.symm
  split <;> rename_i h
  · exact h.symm
  split <;> rename_i h
  · exact h.symm
  · rfl

end ArgumentKind

/-- An argument of a component, with the default of its library and the value that was set. -/
structure Argument where
  name : String
  kind : ArgumentKind
  default : Option Json
  value : Option Json

/-- A port. A slot is one requested element of an array port of the same component, which it refers
to by position. -/
structure Port where
  name : String
  type : String
  isArray : Bool
  slotOf : Option Nat
deriving DecidableEq, Repr

def Port.isSlot (p : Port) : Bool :=
  p.slotOf.isSome

structure Component where
  id : String
  name : String
  type : String
  superClasses : List String
  ports : List Port
  arguments : List Argument

/-- The position of the first port with a name. -/
def Component.findPort? (c : Component) (name : String) : Option Nat :=
  c.ports.findIdx? (·.name == name)

/-- A label names the port it is attached to by the id of the component and by position. -/
structure Netlist.Label where
  name : String
  node : String
  port : Nat
deriving DecidableEq, Repr

/-- The editor's document: components and labels in document order, under their editor ids. -/
structure Netlist where
  nodes : List (String × Component)
  labels : List (String × Netlist.Label)

end Schematic
