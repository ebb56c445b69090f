import Schematic.Declaration.Basic
import Schematic.Support
import Schematic.Wrapper

namespace Schematic

namespace Declaration

open Text (isIdentifier)

/-- A node must have a proper name and class. -/
def checkNode (node : Circuit.Node) : Except Fault Unit :=
  if !isIdentifier node.name then .error (.blockName node.name)
  else if !isIdentifier node.type then .error (.blockClass node.name node.type)
  else .ok ()

def ofPin (p : Wrapper.Pin) : Export :=
  ⟨p.name, p.number, p.exposed⟩

/-- The declarations of a node. A wrapped node leaves its arguments to the wrapper; of several
wrappers the last one counts. -/
def ofNode (wrappers : List Wrapper) (entry : Circuit.Node × Nat) :
    Except Fault (Option Connector × Block) := do
  let (node, n) := entry
  checkNode node
  let arguments ← Argument.writeAll node.name node.arguments
  match wrappers.findRev? (·.node == n) with
  | some w =>
    let connector := ⟨w.className, node.type, arguments, w.pins.map ofPin⟩
    return (some connector, ⟨node.name, w.className, []⟩)
  | none => return (none, ⟨node.name, node.type, arguments⟩)

/-- Appends the block of a support block, whose name must be proper and new. -/
def addSupport (cs : Connections) (blocks : List Block) (s : Support) :
    Except Fault (List Block) := do
  if !isIdentifier s.name then
    throw (.supportName (← cs.get s.busConnection).name s.name)
  else if blocks.any (·.name == s.name) then
    throw (.supportTaken (← cs.get s.busConnection).name s.name)
  else
    return blocks ++ [⟨s.name, s.className, []⟩]

/-- How a port is referred to on a connection that is an array or not. -/
def ofMember (circuit : Circuit) (isArray : Bool) (m : PortRef) : Except Fault Expression := do
  let e ← circuit.endpoint m
  if !isIdentifier e.port.name then throw (.portName e.node.name e.port.name)
  match e.port.slotOf with
  | none => return .port e.node.name e.port.name
  | some p =>
    let parent := (← circuit.endpoint ⟨m.node, p⟩).port
    if !isIdentifier parent.name then throw (.parentName e.node.name parent.name)
    if isArray then return .requestVector e.node.name parent.name e.port.name
    else return .request e.node.name parent.name e.port.name

def ofMembers (circuit : Circuit) (isArray : Bool) (c : Connection) :
    Except Fault (List Expression) :=
  c.members.mapM (ofMember circuit isArray)

/-- The connect of a connection: its own members in order, then those that were added. -/
def connecting (circuit : Circuit) (additions : Support.Additions) (entry : Connection × Nat) :
    Inquiry Connect := do
  let (c, i) := entry
  let isArray ← Inquiry.isArray i
  let members ← ofMembers circuit isArray c
  return ⟨c.name, members ++ (additions.membersOf c.id).map fun m => .port m.block m.port⟩

/-- The connectors and the blocks of a design, those of nodes before the support blocks. -/
def placeBlocks (circuit : Circuit) (cs : Connections) (wrappers : List Wrapper)
    (additions : Support.Additions) : Except Fault (List Connector × List Block) := do
  let nodes ← circuit.nodes.zipIdx.mapM (ofNode wrappers)
  let blocks ← additions.blocks.foldlM (addSupport cs) (nodes.map (·.2))
  return (nodes.filterMap (·.1), blocks)

end Declaration

namespace Declarations

open Declaration

/-- The declarations of a circuit, with the names checked on the way: nodes first, then support
blocks, then connects. -/
def emitting (circuit : Circuit) (cs : Connections) (wrappers : List Wrapper)
    (additions : Support.Additions) (header : ModuleHeader) : Inquiry Declarations := do
  let (connectors, blocks) ← placeBlocks circuit cs wrappers additions
  let connects ← cs.list.zipIdx.mapM (connecting circuit additions)
  return { header, connectors, blocks, connects }

def ofCircuit (circuit : Circuit) (cs : Connections) (wrappers : List Wrapper)
    (additions : Support.Additions) (header : ModuleHeader) : Except Fault Declarations :=
  ((emitting circuit cs wrappers additions header).run circuit cs).result

end Declarations

end Schematic
