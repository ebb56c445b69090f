import Schematic.Circuit.Basic

namespace Schematic

/-- Whether a connection carries arrays or single signals. If all members are slots it is open. -/
inductive Shape where
  | array
  | scalar
  | slotsOnly
deriving DecidableEq, Repr

/-- The ports that carry labels of one name, in label order. The known shape is the first one that
was found; it stays although the circuit may change. -/
structure Connection where
  id : Nat
  name : String
  members : List PortRef
  known : Option Shape
deriving DecidableEq, Repr

/-- The connections of a circuit in the order of their first labels. The ids of connections are
their positions, and can be looked up by name and by port. -/
structure Connections where
  list : List Connection
  byName : List (String × Nat)
  byPort : List (PortRef × Nat)
deriving DecidableEq, Repr

namespace Connections

def empty : Connections := ⟨[], [], []⟩

/-- The connection with an id. -/
def get (cs : Connections) (id : Nat) : Except Fault Connection :=
  match cs.list[id]? with
  | some c => .ok c
  | none => .error (.lostConnection id)

/-- The connection that an index entry leads to, with the id it is found by. -/
def follow (cs : Connections) : Option Nat → Except Fault (Option (Connection × Nat))
  | none => .ok none
  | some id => do return some (← cs.get id, id)

/-- The connection with a name. -/
def find? (cs : Connections) (name : String) : Except Fault (Option (Connection × Nat)) :=
  cs.follow (cs.byName.lookup name)

/-- The connection that a port belongs to. -/
def owner? (cs : Connections) (p : PortRef) : Except Fault (Option (Connection × Nat)) :=
  cs.follow (cs.byPort.lookup p)

/-- The id of the connection with a name, which is made if there is none. -/
def ensure (cs : Connections) (name : String) : Connections × Nat :=
  match cs.byName.lookup name with
  | some id => (cs, id)
  | none =>
    let id := cs.list.length
    ({ cs with
        list := cs.list ++ [⟨id, name, [], none⟩]
        byName := cs.byName ++ [(name, id)] }, id)

/-- Adds a port to the connection with an id. -/
def attach (cs : Connections) (id : Nat) (p : PortRef) : Except Fault Connections := do
  let c ← cs.get id
  return { cs with
    list := cs.list.set id { c with members := c.members ++ [p] }
    byPort := cs.byPort ++ [(p, id)] }

/-- Takes in one label. Its port may not belong to a connection yet; a connection with its name is
there by the time this is looked up. -/
def addLabel (circuit : Circuit) (cs : Connections) (l : Circuit.Label) :
    Except Fault Connections := do
  let (cs, id) := cs.ensure l.name
  match cs.byPort.lookup l.target with
  | none => cs.attach id l.target
  | some owner =>
    let e ← circuit.endpoint l.target
    throw (.duplicateLabel e.node.name e.port.name (← cs.get owner).name l.name)

/-- The connections of a circuit's labels. -/
def ofCircuit (circuit : Circuit) : Except Fault Connections :=
  circuit.labels.foldlM (addLabel circuit) empty

end Connections

end Schematic
