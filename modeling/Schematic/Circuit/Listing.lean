import Schematic.Circuit.Basic

namespace Schematic.Circuit

def roleText : Role → String
  | .connector => "connector"
  | .support bus => bus.name ++ " support"
  | .plain => "plain"

/-- The text of a value that may be missing. -/
def valueText (j : Option Json) : String :=
  (Json.orNull j).compact

/-- What is listed of the port that a slot of a node belongs to. -/
def slotText (c : Circuit) (n : Nat) : Option Nat → Except Fault String
  | some parent => do return " (slot of '" ++ (← c.endpoint ⟨n, parent⟩).port.name ++ "')"
  | none => .ok ""

def portLine (c : Circuit) (n : Nat) (entry : Port × Nat) : Except Fault String := do
  let (p, i) := entry
  return "    port " ++ Decimal.natural i ++ " '" ++ p.name ++ "': " ++ p.type ++
    (if p.isArray then "[]" else "") ++ (← c.slotText n p.slotOf) ++ "\n"

def argumentLine (a : Argument) : String :=
  "    arg '" ++ a.name ++ "': " ++ a.kind.name ++ " = " ++ valueText a.value ++
    " (default " ++ valueText a.default ++ ")\n"

def nodeLines (c : Circuit) (entry : Node × Nat) : Except Fault String := do
  let (node, n) := entry
  return "  node '" ++ node.name ++ "': " ++ node.type ++ " [" ++ roleText node.role ++ "]\n" ++
    String.join (← node.ports.zipIdx.mapM (c.portLine n)) ++
    String.join (node.arguments.map argumentLine)

/-- A label with the names of the node and the port it points at. -/
def labelLine (c : Circuit) (l : Label) : Except Fault String := do
  return "  label '" ++ l.name ++ "' -> " ++
    String.intercalate "." (← c.endpoint l.target).path ++ "\n"

/-- The circuit listed for reading, a line for each node, port, argument and label. -/
def listing (c : Circuit) : Except Fault String := do
  return "Graph (" ++ Decimal.natural c.nodes.length ++ " nodes, " ++
    Decimal.natural c.labels.length ++ " labels)\n" ++
    String.join (← c.nodes.zipIdx.mapM c.nodeLines) ++ String.join (← c.labels.mapM c.labelLine)

end Schematic.Circuit
