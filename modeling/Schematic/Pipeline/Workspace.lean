import Schematic.Circuit.Build
import Schematic.Declaration.Emit
import Schematic.Declaration.Text
import Schematic.Pipeline.Pass

namespace Schematic

/-- A netlist and what the passes made of it so far. -/
structure Workspace where
  netlist : Netlist
  registry : Registry
  circuit : Option Circuit := none
  connections : Option Connections := none
  wrappers : Option (List Wrapper) := none
  additions : Option Support.Additions := none
  declarations : Option Declarations := none

/-- A pass that failed, and why. -/
structure Stop where
  pass : Pass
  fault : Fault

def Stop.text (s : Stop) : String :=
  s.pass.name ++ ": " ++ s.fault.problem.text

/-- What a pass did. -/
structure Step where
  result : Except Fault Unit
  workspace : Workspace
  events : List Event

/-- What a run did. -/
structure Run where
  result : Except Stop Unit
  workspace : Workspace
  events : List Event

namespace Workspace

def new (registry : Registry) (netlist : Netlist) : Workspace :=
  { netlist, registry }

/-- The pass lacks something it needs. -/
def lacking (w : Workspace) (pass : Pass) : Step :=
  ⟨.error (.inputsMissing pass), w, []⟩

def buildGraph (w : Workspace) : Step :=
  match Circuit.ofNetlist w.registry w.netlist with
  | .ok circuit => ⟨.ok (), { w with circuit := some circuit }, []⟩
  | .error f => ⟨.error f, w, []⟩

def aggregate (w : Workspace) : Step :=
  match w.circuit with
  | none => w.lacking .aggregate
  | some circuit =>
    match Connections.ofCircuit circuit with
    | .ok cs => ⟨.ok (), { w with connections := some cs }, []⟩
    | .error f => ⟨.error f, w, []⟩

/-- Runs an inquiry of a pass and keeps its result. The shapes that it finds stay with the
connections also if it fails. -/
def inquire {α : Type} (w : Workspace) (circuit : Circuit) (cs : Connections) (p : Inquiry α)
    (keep : Workspace → α → Workspace) : Step :=
  let o := p.run circuit cs
  let w := { w with connections := some o.connections }
  match o.result with
  | .ok a => ⟨.ok (), keep w a, o.events⟩
  | .error f => ⟨.error f, w, o.events⟩

def inferShape (w : Workspace) : Step :=
  match w.circuit, w.connections with
  | some circuit, some cs => w.inquire circuit cs cs.checking fun w _ => w
  | _, _ => w.lacking .inferShape

def synthesizeConnectors (w : Workspace) : Step :=
  match w.circuit, w.connections with
  | some circuit, some cs =>
    w.inquire circuit cs (Wrapper.wrapping w.registry circuit cs) fun w wrappers =>
      { w with wrappers := some wrappers }
  | _, _ => w.lacking .synthesizeConnectors

def inferImplicit (w : Workspace) : Step :=
  match w.circuit, w.connections with
  | some circuit, some cs =>
    w.inquire circuit cs (Support.planning w.registry circuit cs) fun w additions =>
      { w with additions := some additions }
  | _, _ => w.lacking .inferImplicit

def emit (w : Workspace) (header : ModuleHeader) : Step :=
  match w.circuit, w.connections, w.wrappers, w.additions with
  | some circuit, some cs, some wrappers, some additions =>
    w.inquire circuit cs (Declarations.emitting circuit cs wrappers additions header)
      fun w declarations => { w with declarations := some declarations }
  | _, _, _, _ => w.lacking .emit

def step (header : ModuleHeader) (w : Workspace) : Pass → Step
  | .buildGraph => w.buildGraph
  | .aggregate => w.aggregate
  | .inferShape => w.inferShape
  | .synthesizeConnectors => w.synthesizeConnectors
  | .inferImplicit => w.inferImplicit
  | .emit => w.emit header

/-- Runs passes in order, up to the first that fails. -/
def runPasses (header : ModuleHeader) (w : Workspace) : List Pass → Run
  | [] => ⟨.ok (), w, []⟩
  | pass :: rest =>
    let s := w.step header pass
    match s.result with
    | .error fault => ⟨.error ⟨pass, fault⟩, s.workspace, s.events ++ [.passComplete pass false]⟩
    | .ok () =>
      let r := runPasses header s.workspace rest
      { r with events := s.events ++ .passComplete pass true :: r.events }

/-- Runs a pass and all that it needs. -/
def run (header : ModuleHeader) (terminal : Pass) (w : Workspace) : Run :=
  w.runPasses header terminal.required

end Workspace

end Schematic
