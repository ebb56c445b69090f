import Schematic.Connection.Basic

namespace Schematic

namespace Connection

/-- The members that are no slots. -/
def solid (circuit : Circuit) (c : Connection) : Except Fault (List Endpoint) := do
  return (← c.members.mapM circuit.endpoint).filter fun e => !e.port.isSlot

/-- The shape in a circuit, whatever was known before. The first member sets it, and the first one
that disagrees is reported with it. -/
def shapeIn (circuit : Circuit) (c : Connection) : Except Fault Shape := do
  match ← c.solid circuit with
  | [] => return .slotsOnly
  | e :: rest =>
    match rest.find? fun f => f.port.isArray != e.port.isArray with
    | none => return if e.port.isArray then .array else .scalar
    | some f =>
      if e.port.isArray then throw (.mixedShape c.name e.path f.path)
      else throw (.mixedShape c.name f.path e.path)

/-- Asks for the shape. The known one is given, or else the one in the circuit, which is known from
then on; a failure leaves nothing behind. -/
def query (circuit : Circuit) (c : Connection) : Except Fault Shape × Connection :=
  match c.known with
  | some s => (.ok s, c)
  | none =>
    match c.shapeIn circuit with
    | .ok s => (.ok s, { c with known := some s })
    | .error f => (.error f, c)

/-- The answer to the query. -/
def shape (circuit : Circuit) (c : Connection) : Except Fault Shape :=
  (c.query circuit).1

end Connection

/-- Asks for the shape of the connection at a position. -/
def Connections.query (circuit : Circuit) (cs : Connections) (i : Nat) :
    Except Fault Shape × Connections :=
  match cs.list[i]? with
  | none => (.error (.lostConnection i), cs)
  | some c =>
    let (answer, c) := c.query circuit
    (answer, { cs with list := cs.list.set i c })

end Schematic
