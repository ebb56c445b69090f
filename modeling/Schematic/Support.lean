import Schematic.Connection.Inquiry

namespace Schematic

/-- A support block that is added, and the connections it is wired to. -/
structure Support where
  name : String
  className : String
  bus : BusKind
  busConnection : Nat
  powerConnection : Nat
deriving DecidableEq, Repr

namespace Support

/-- A port of an added block. -/
structure Member where
  block : String
  port : String
deriving DecidableEq, Repr

/-- The added blocks, and their ports by the ids of the connections they are added to. -/
structure Additions where
  blocks : List Support
  members : List (List Member)
deriving DecidableEq, Repr

namespace Additions

def empty : Additions := ⟨[], []⟩

/-- The ports that are added to a connection, in order. -/
def membersOf (a : Additions) (id : Nat) : List Member :=
  (a.members[id]?).getD []

def isEmpty (a : Additions) : Bool :=
  a.blocks.isEmpty

/-- Adds a port to a connection. Lists for it and those before it are made where there are none. -/
def push (a : Additions) (id : Nat) (m : Member) : Except Fault Additions :=
  let members := a.members.rightpad (id + 1) []
  match members[id]? with
  | some ms => .ok { a with members := members.set id (ms ++ [m]) }
  | none => .error (.lostConnection id)

end Additions

/-- Some member has a type of the bus. -/
def carries (circuit : Circuit) (rule : BusRule) (c : Connection) : Except Fault Bool :=
  c.members.anyM fun m => do
    let e ← circuit.endpoint m
    return rule.isController e.port.type || rule.isTarget e.port.type

/-- Some member belongs to a support block of the bus. -/
def isSupported (circuit : Circuit) (bus : BusKind) (c : Connection) : Except Fault Bool :=
  c.members.anyM fun m => do return (← circuit.endpoint m).node.role == .support bus

/-- The connection carries the bus and has no support block of it. -/
def needsSupport (circuit : Circuit) (rule : BusRule) (c : Connection) : Except Fault Bool := do
  if ← carries circuit rule c then return !(← isSupported circuit rule.kind c)
  else return false

/-- The connection of the first power port of a node that is labelled. -/
def nodePower? (cs : Connections) (rule : BusRule) (node : Circuit.Node) (n : Nat) :
    Except Fault (Option Nat) :=
  rule.controllerPowerPorts.findSomeM? fun name => do
    match node.findPort? name with
    | none => return none
    | some p => return (← cs.owner? ⟨n, p⟩).map (·.1.id)

/-- The connection that powers the first controller that has one. -/
def power? (circuit : Circuit) (cs : Connections) (rule : BusRule) (c : Connection) :
    Except Fault (Option Nat) :=
  c.members.findSomeM? fun m => do
    let e ← circuit.endpoint m
    if rule.isController e.port.type then nodePower? cs rule e.node m.node else return none

/-- What a bus rule does at a connection. -/
inductive Verdict where
  /-- The connection does not carry the bus or has its support block. -/
  | settled
  /-- An array cannot be supported. -/
  | arrayBus
  /-- No controller is powered by a connection. -/
  | unpowered
  | add (power : Nat)
deriving DecidableEq, Repr

/-- A connection, its position, and a bus rule to try on it. -/
structure Trial where
  connection : Connection
  connectionId : Nat
  rule : BusRule

def trials (registry : Registry) (cs : Connections) : List Trial :=
  cs.list.zipIdx.flatMap fun (connection, connectionId) =>
    registry.buses.map fun rule => { connection, connectionId, rule }

namespace Trial

def blockName (t : Trial) : String :=
  t.rule.supportStem ++ t.connection.name

/-- The shape is asked for only where a support block would be added. -/
def judging (circuit : Circuit) (cs : Connections) (t : Trial) : Inquiry Verdict := do
  if ← needsSupport circuit t.rule t.connection then
    if (← Inquiry.shape? t.connectionId) == some .array then return .arrayBus
    else
      match ← power? circuit cs t.rule t.connection with
      | some power => return .add power
      | none => return .unpowered
  else return .settled

/-- The block that a trial adds with a power. -/
def block (t : Trial) (power : Nat) : Support where
  name := t.blockName
  className := t.rule.supportClass
  bus := t.rule.kind
  busConnection := t.connection.id
  powerConnection := power

/-- Adds the block of a trial and its ports, power before bus. -/
def insert (t : Trial) (power : Nat) (a : Additions) : Except Fault Additions := do
  let a ← a.push power ⟨t.blockName, t.rule.supportPowerPort⟩
  let a ← a.push t.connection.id ⟨t.blockName, t.rule.supportBusPort⟩
  return { a with blocks := a.blocks ++ [t.block power] }

def applying (cs : Connections) (a : Additions) (t : Trial) : Verdict → Inquiry Additions
  | .settled => return a
  | .arrayBus => do
    .note (.arrayBus t.connection.name t.rule.kind)
    return a
  | .unpowered => do
    .note (.unpoweredBus t.connection.name t.rule.kind)
    return a
  | .add power => do
    .note (.supportAdded t.connection.name t.blockName (← cs.get power).name)
    t.insert power a

def trying (circuit : Circuit) (cs : Connections) (a : Additions) (t : Trial) :
    Inquiry Additions := do
  t.applying cs a (← t.judging circuit cs)

end Trial

/-- What the bus rules add to a circuit, in the order of connections and then of rules. -/
def planning (registry : Registry) (circuit : Circuit) (cs : Connections) : Inquiry Additions :=
  (trials registry cs).foldlM (Trial.trying circuit cs) .empty

def plan (registry : Registry) (circuit : Circuit) (cs : Connections) : Except Fault Additions :=
  ((planning registry circuit cs).run circuit cs).result

end Support

end Schematic
