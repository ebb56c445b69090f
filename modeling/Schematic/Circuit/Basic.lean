import Schematic.Fault
import Schematic.Netlist.Basic
import Schematic.Registry.Basic

namespace Schematic

/-- A port by the positions of its node and of itself. -/
structure PortRef where
  node : Nat
  port : Nat
deriving DecidableEq, Repr

namespace Circuit

structure Node extends Component where
  role : Role

structure Label where
  id : String
  name : String
  target : PortRef

end Circuit

/-- A netlist whose references are resolved: nodes and labels are known by position, every node has
a role, and a label points at a port. -/
structure Circuit where
  nodes : List Circuit.Node
  labels : List Circuit.Label

/-- A port together with its node. -/
structure Endpoint where
  node : Circuit.Node
  port : Port

/-- The names of the node and of the port. -/
def Endpoint.path (e : Endpoint) : List String :=
  [e.node.name, e.port.name]

namespace Circuit

/-- What a reference leads to, if anything. -/
def endpoint? (c : Circuit) (r : PortRef) : Option Endpoint := do
  let node ← c.nodes[r.node]?
  let port ← node.ports[r.port]?
  return ⟨node, port⟩

/-- What a reference leads to. -/
def endpoint (c : Circuit) (r : PortRef) : Except Fault Endpoint :=
  match c.endpoint? r with
  | some e => .ok e
  | none => .error (.dangling r.node r.port)

end Circuit

end Schematic
