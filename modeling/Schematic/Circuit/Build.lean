import Schematic.Circuit.Basic

namespace Schematic.Circuit

/-- A slot may belong to a port of the same component that is itself no slot. -/
def isSlotParent (ports : List Port) (parent : Nat) : Bool :=
  (ports[parent]?).any fun p => !p.isSlot

/-- The first slot without a proper parent, with the parent it names. -/
def strayPort? (ports : List Port) : Option (Port × Nat) :=
  ports.findSome? fun p =>
    match p.slotOf with
    | some parent => if isSlotParent ports parent then none else some (p, parent)
    | none => none

/-- A component takes the key it is listed under as its id if it has none. -/
def resolveNode (registry : Registry) (entry : String × Component) : Except Fault Node :=
  let (key, c) := entry
  match strayPort? c.ports with
  | some (port, parent) => .error (.slotParent c.name port.name parent)
  | none =>
    .ok {
      c with
      id := if c.id.isEmpty then key else c.id
      role := registry.roleOf c.type c.superClasses }

def resolveLabel (nodes : List (String × Component)) (entry : String × Netlist.Label) :
    Except Fault Label :=
  let (id, l) := entry
  match nodes.zipIdx.find? fun e => e.1.1 == l.node with
  | none => .error (.unknownNode l.name l.node)
  | some ((_, c), i) =>
    if l.port < c.ports.length then .ok { id, name := l.name, target := ⟨i, l.port⟩ }
    else .error (.unknownPort l.name c.name l.port c.ports.length)

/-- The circuit of a netlist. -/
def ofNetlist (registry : Registry) (netlist : Netlist) : Except Fault Circuit := do
  let nodes ← netlist.nodes.mapM (resolveNode registry)
  let labels ← netlist.labels.mapM (resolveLabel netlist.nodes)
  return { nodes, labels }

def modifyNode (c : Circuit) (n : Nat) (f : Node → Node) : Circuit :=
  { c with nodes := c.nodes.modify n f }

def modifyPort (c : Circuit) (r : PortRef) (f : Port → Port) : Circuit :=
  c.modifyNode r.node fun node => { node with ports := node.ports.modify r.port f }

def renameLabel (c : Circuit) (i : Nat) (name : String) : Circuit :=
  { c with labels := c.labels.modify i fun l => { l with name } }

def moveLabel (c : Circuit) (i : Nat) (target : PortRef) : Circuit :=
  { c with labels := c.labels.modify i fun l => { l with target } }

def removeLabel (c : Circuit) (i : Nat) : Circuit :=
  { c with labels := c.labels.eraseIdx i }

end Schematic.Circuit
