import Schematic.Circuit.Build
import Schematic.Declaration.Emit

namespace Schematic

/-- A circuit that may be changed between queries, and the connections, wrappers and additions that
were last made from it. -/
structure Session where
  registry : Registry
  header : ModuleHeader
  circuit : Circuit
  connections : Connections
  wrappers : List Wrapper
  additions : Support.Additions

namespace Session

/-- A session on a netlist, with no wrappers and no additions. -/
def start (registry : Registry) (header : ModuleHeader) (netlist : Netlist) :
    Except Fault Session := do
  let circuit ← Circuit.ofNetlist registry netlist
  let connections ← Connections.ofCircuit circuit
  return { registry, header, circuit, connections, wrappers := [], additions := .empty }

/-- Runs an inquiry; the shapes that it finds stay with the connections. -/
def inquire {α : Type} (s : Session) (p : Inquiry α) : Except Fault α × Session :=
  let o := p.run s.circuit s.connections
  (o.result, { s with connections := o.connections })

/-- The shape of the connection with a name, if there is one. -/
def shapeOf? (s : Session) (name : String) : Except Fault (Option Shape) × Session :=
  s.inquire (s.connections.about name .shape)

def isArray? (s : Session) (name : String) : Except Fault (Option Bool) × Session :=
  s.inquire (s.connections.about name .isArray)

def checkShapes (s : Session) : Except Fault Unit × Session :=
  s.inquire s.connections.checking

def listing (s : Session) : Except Fault String × Session :=
  s.inquire (s.connections.describing s.circuit)

/-- Makes the connections again; on a fault the old ones stay. -/
def reconnect (s : Session) : Except Fault Connections × Session :=
  match Connections.ofCircuit s.circuit with
  | .ok connections => (.ok connections, { s with connections })
  | .error f => (.error f, s)

/-- Makes the wrappers again; on a fault the old ones stay. -/
def wrapAll (s : Session) : Except Fault (List Wrapper) × Session :=
  match s.inquire (Wrapper.wrapping s.registry s.circuit s.connections) with
  | (.ok wrappers, s) => (.ok wrappers, { s with wrappers })
  | (.error f, s) => (.error f, s)

/-- Makes the additions again; on a fault the old ones stay. -/
def plan (s : Session) : Except Fault Support.Additions × Session :=
  match s.inquire (Support.planning s.registry s.circuit s.connections) with
  | (.ok additions, s) => (.ok additions, { s with additions })
  | (.error f, s) => (.error f, s)

def emit (s : Session) : Except Fault Declarations × Session :=
  s.inquire (Declarations.emitting s.circuit s.connections s.wrappers s.additions s.header)

def dropWrappers (s : Session) : Session :=
  { s with wrappers := [] }

def dropAdditions (s : Session) : Session :=
  { s with additions := .empty }

/-- Changes the circuit only. -/
def edit (s : Session) (f : Circuit → Circuit) : Session :=
  { s with circuit := f s.circuit }

end Session

end Schematic
