import Schematic.Connection.Inquiry

namespace Schematic

namespace Wrapper

structure Pin where
  port : Nat
  name : String
  /-- The pin of the wrapped part, counted from one. -/
  number : Nat
  exposed : String
deriving DecidableEq, Repr

/-- What the names of pins start with. -/
def pinStem : List Char := "port_".toList

/-- The largest number of 32 bits. -/
def largestNumber : Nat := 0xffffffff

/-- The number of a pin: names count from zero and parts from one, and both within 32 bits. -/
def pinNumber? (name : String) : Option Nat :=
  let cs := name.toList
  if pinStem.isPrefixOf cs then
    let ds := cs.drop pinStem.length
    if ds ≠ [] ∧ ds.all Decimal.isDigit then do
      let n ← Decimal.valueUpTo? largestNumber ds
      if n < largestNumber then some (n + 1) else none
    else none
  else none

end Wrapper

/-- The wrapper of a node. -/
structure Wrapper where
  node : Nat
  className : String
  pins : List Wrapper.Pin
deriving DecidableEq, Repr

/-- The name of the class that wraps a component. -/
def Component.wrapperClass (c : Component) : String :=
  c.type ++ "_" ++ c.name

namespace Wrapper

/-- A labelled pin of a connector, with the connection it lies on. -/
structure Site where
  node : Circuit.Node
  port : Port
  ref : PortRef
  connection : Connection
  connectionId : Nat

/-- The labelled pin at a port, if the port is labelled. -/
def siteAt? (cs : Connections) (node : Circuit.Node) (n : Nat) (entry : Port × Nat) :
    Except Fault (Option Site) := do
  let (port, p) := entry
  match ← cs.owner? ⟨n, p⟩ with
  | none => return none
  | some (connection, connectionId) =>
    return some { node, port, ref := ⟨n, p⟩, connection, connectionId }

/-- The labelled pins of a node. -/
def sitesOf (cs : Connections) (entry : Circuit.Node × Nat) : Except Fault (List Site) := do
  let (node, n) := entry
  return (← node.ports.zipIdx.mapM (siteAt? cs node n)).filterMap id

/-- The connectors of a circuit, with their positions. -/
def connectors (circuit : Circuit) : List (Circuit.Node × Nat) :=
  circuit.nodes.zipIdx.filter fun (node, _) => node.role == .connector

/-- The types of the other ports on a pin's connection, each once and in order. -/
def incoming (circuit : Circuit) (s : Site) : Except Fault (List String) := do
  let others ← (s.connection.members.filter (· != s.ref)).mapM circuit.endpoint
  return (others.map (·.port.type)).eraseDups.mergeSort fun a b => decide (a ≤ b)

/-- The pin that a labelled port becomes. Its name is checked first, then that it lies on no array,
then that a rule covers what it is wired to. -/
def adapting (registry : Registry) (circuit : Circuit) (s : Site) : Inquiry Pin := do
  match pinNumber? s.port.name with
  | none => .fail (.pinName s.node.name s.port.name)
  | some number =>
    if ← .isArray s.connectionId then
      .fail (.pinOnArray s.node.name s.port.name s.connection.name)
    else
      let types ← incoming circuit s
      match registry.adapter? types with
      | none => .fail (.pinTypes s.node.name s.port.name types)
      | some rule =>
        .note (.pinResolved s.node.name s.port.name rule.exposes)
        return { port := s.ref.port, name := s.port.name, number, exposed := rule.exposes }

/-- The wrapper of a connector. -/
def wrappingOne (registry : Registry) (circuit : Circuit) (cs : Connections)
    (entry : Circuit.Node × Nat) : Inquiry Wrapper := do
  let sites ← sitesOf cs entry
  let pins ← sites.mapM (adapting registry circuit)
  return { node := entry.2, className := entry.1.wrapperClass, pins }

/-- The wrappers of all connectors of a circuit. -/
def wrapping (registry : Registry) (circuit : Circuit) (cs : Connections) :
    Inquiry (List Wrapper) :=
  (connectors circuit).mapM (wrappingOne registry circuit cs)

def wrapAll (registry : Registry) (circuit : Circuit) (cs : Connections) :
    Except Fault (List Wrapper) :=
  ((wrapping registry circuit cs).run circuit cs).result

end Wrapper

end Schematic
