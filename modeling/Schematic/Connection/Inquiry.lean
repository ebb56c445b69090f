import Schematic.Connection.Shape

namespace Schematic

/-- What is told of a run. -/
inductive Event where
  | pinResolved (connector pin exposed : String)
  | arrayBus (label : String) (bus : BusKind)
  | unpoweredBus (label : String) (bus : BusKind)
  | supportAdded (label block power : String)
  | passComplete (pass : Pass) (ok : Bool)
deriving DecidableEq, Repr

/-- A computation that asks for the shapes of connections, which it knows by position, and tells
events on its way. -/
inductive Inquiry (α : Type) where
  | done (result : Except Fault α)
  | tell (event : Event) (next : Inquiry α)
  | ask (i : Nat) (next : Except Fault Shape → Inquiry α)

namespace Inquiry

variable {α β : Type}

protected def bind : Inquiry α → (α → Inquiry β) → Inquiry β
  | done (.ok a), f => f a
  | done (.error fault), _ => done (.error fault)
  | tell event next, f => tell event (next.bind f)
  | ask i next, f => ask i fun answer => (next answer).bind f

instance : Monad Inquiry where
  pure a := done (.ok a)
  bind := Inquiry.bind

instance : MonadLift (Except Fault) Inquiry where
  monadLift := done

def fail (fault : Fault) : Inquiry α :=
  done (.error fault)

def note (event : Event) : Inquiry Unit :=
  tell event (done (.ok ()))

/-- The shape of a connection. -/
def shape (i : Nat) : Inquiry Shape :=
  ask i done

/-- A connection of slots only counts as scalar. -/
def isArray (i : Nat) : Inquiry Bool := do
  return (← shape i) == .array

/-- The shape of a connection, none if its members disagree. -/
def shape? (i : Nat) : Inquiry (Option Shape) :=
  ask i fun
    | .ok s => done (.ok (some s))
    | .error fault => if fault.isLost then fail fault else done (.ok none)

/-- What an inquiry leaves: its result, the connections with the shapes that were found on the way,
and what was told. -/
structure Outcome (α : Type) where
  result : Except Fault α
  connections : Connections
  events : List Event

/-- Runs an inquiry. Each answer is kept with its connection before the next question. -/
def run (circuit : Circuit) : Inquiry α → Connections → Outcome α
  | done result, cs => ⟨result, cs, []⟩
  | tell event next, cs =>
    let o := next.run circuit cs
    { o with events := event :: o.events }
  | ask i next, cs =>
    let (answer, cs) := cs.query circuit i
    (next answer).run circuit cs

end Inquiry

namespace Connections

/-- Asks about the connection with a name, if there is one. -/
def about {α : Type} (cs : Connections) (name : String) (question : Nat → Inquiry α) :
    Inquiry (Option α) := do
  match ← cs.find? name with
  | none => return none
  | some (_, i) => return some (← question i)

/-- All connections have shapes; the first that has none is reported. -/
def checking (cs : Connections) : Inquiry Unit :=
  cs.list.zipIdx.forM fun e => do let _ ← Inquiry.shape e.2

def checkShapes (circuit : Circuit) (cs : Connections) : Except Fault Unit :=
  (cs.checking.run circuit cs).result

def shapeText : Option Shape → String
  | some .array => "array"
  | some .scalar => "scalar"
  | some .slotsOnly => "slots only"
  | none => "mixed"

def memberPaths (circuit : Circuit) (c : Connection) : Except Fault (List String) := do
  return (← c.members.mapM circuit.endpoint).map fun e => String.intercalate "." e.path

/-- A line for a connection, with its shape and the paths of its members. -/
def describingLine (circuit : Circuit) (entry : Connection × Nat) : Inquiry String := do
  let (c, i) := entry
  let shape ← Inquiry.shape? i
  let members ← memberPaths circuit c
  return c.name ++ " [" ++ shapeText shape ++ "]: " ++ String.intercalate ", " members ++ "\n"

/-- The connections listed for reading. -/
def describing (circuit : Circuit) (cs : Connections) : Inquiry String := do
  return String.join (← cs.list.zipIdx.mapM (describingLine circuit))

def listing (circuit : Circuit) (cs : Connections) : Except Fault String :=
  ((cs.describing circuit).run circuit cs).result

end Connections

end Schematic
