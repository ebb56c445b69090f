import Schematic.Lowering
import Schematic.Proofs.Pipeline.Freshness

namespace Schematic

/-- What is made of a circuit, with the pass that a fault stops. -/
def Circuit.stages (registry : Registry) (header : ModuleHeader) (circuit : Circuit) :
    Except Stop Declarations := do
  let cs ← (Connections.ofCircuit circuit).mapError (Stop.mk .aggregate)
  (cs.checkShapes circuit).mapError (Stop.mk .inferShape)
  let wrappers ← (Wrapper.wrapAll registry circuit cs).mapError (Stop.mk .synthesizeConnectors)
  let additions ← (Support.plan registry circuit cs).mapError (Stop.mk .inferImplicit)
  (Declarations.ofCircuit circuit cs wrappers additions header).mapError (Stop.mk .emit)

/-- Lowering with the pass that a fault stops. -/
def Netlist.stages (registry : Registry) (header : ModuleHeader) (n : Netlist) :
    Except Stop Declarations := do
  let circuit ← (Circuit.ofNetlist registry n).mapError (Stop.mk .buildGraph)
  circuit.stages registry header

namespace Workspace

variable {header : ModuleHeader} {w : Workspace}

/-- Running some passes comes to a result, and leaves the declarations if there are any. -/
def ComesTo (header : ModuleHeader) (w : Workspace) (passes : List Pass)
    (x : Except Stop Declarations) : Prop :=
  (w.runPasses header passes).result = x.map (fun _ => ()) ∧
    (w.runPasses header passes).workspace.declarations = x.toOption

/-- One pass, and then the others on what it made. -/
theorem ComesTo.cons {p : Pass} {rest : List Pass} {α : Type} {made : Except Fault α}
    {next : α → Except Stop Declarations}
    (hresult : (w.outcome header p).result = made.map fun _ => ())
    (hnone : ∀ f, made = .error f → (w.take (w.outcome header p)).declarations = none)
    (hrest : ∀ a, made = .ok a → (w.take (w.outcome header p)).ComesTo header rest (next a)) :
    w.ComesTo header (p :: rest) (made.mapError (Stop.mk p) >>= next) := by
  cases made with
  | error f =>
    rw [ComesTo, runPasses_cons_of_error hresult]
    exact ⟨rfl, hnone f rfl⟩
  | ok a =>
    rw [ComesTo, runPasses_cons_of_ok hresult]
    exact hrest a rfl

/-- The workspace has a circuit, connections that know only what is true of it, and nothing that was
emitted. -/
structure Connected (w : Workspace) (c : Circuit) (cs : Connections) : Prop where
  circuit : w.circuit = some c
  connections : w.connections = some cs
  faithful : cs.Faithful c
  forget : cs.forget = c.connections
  declarations : w.declarations = none

section

variable {c : Circuit} {cs : Connections} (hw : w.Connected c cs)

include hw

theorem Connected.emit_comesTo {wrappers : List Wrapper} {additions : Support.Additions}
    (hwrappers : w.wrappers = some wrappers) (hadditions : w.additions = some additions) :
    w.ComesTo header [.emit] ((Declarations.ofCircuit c c.connections wrappers additions
      header).mapError (Stop.mk .emit)) := by
  rw [← hw.forget, Declarations.ofCircuit_forget hw.faithful, ← bind_pure (Except.mapError _ _)]
  refine .cons ?_ (fun f hf => ?_) fun d hd => ⟨rfl, ?_⟩
  · simp only [outcome, hw.circuit, hw.connections, hwrappers, hadditions]
    rfl
  · have hresult : ((Declarations.emitting c cs wrappers additions header).run c cs).result =
        .error f := hf
    simp only [take, outcome, hw.circuit, hw.connections, hwrappers, hadditions, hresult]
    exact hw.declarations
  · have hresult : ((Declarations.emitting c cs wrappers additions header).run c cs).result =
        .ok d := hd
    simp only [runPasses, take, outcome, hw.circuit, hw.connections, hwrappers, hadditions, hresult]
    rfl

/-- The passes between the grouping of labels and the emission keep a workspace connected. -/
theorem Connected.take_outcome (header : ModuleHeader) (p : Pass)
    (hp : p ∈ [Pass.inferShape, .synthesizeConnectors, .inferImplicit]) :
    ∃ known, (w.take (w.outcome header p)).Connected c known := by
  cases p with
  | inferShape | synthesizeConnectors | inferImplicit =>
    simp only [take, outcome, Outcome.ofRun, Inquiry.run_eq, hw.circuit, hw.connections,
      Option.some_or, Option.none_or]
    exact ⟨_, rfl, rfl, hw.faithful.remember _, (cs.forget_remember c _).trans hw.forget,
      hw.declarations⟩
  | buildGraph | aggregate | emit => simp at hp

theorem Connected.inferImplicit_comesTo {wrappers : List Wrapper}
    (hwrappers : w.wrappers = some wrappers) :
    w.ComesTo header [.inferImplicit, .emit] (do
      let additions ← (Support.plan w.registry c c.connections).mapError (Stop.mk .inferImplicit)
      (Declarations.ofCircuit c c.connections wrappers additions header).mapError
        (Stop.mk .emit)) := by
  rw [← hw.forget, Support.plan_forget hw.faithful, hw.forget]
  obtain ⟨known, hafter⟩ := hw.take_outcome header .inferImplicit (by decide)
  refine .cons ?_ (fun _ _ => hafter.declarations) fun additions hadditions => ?_
  · simp only [outcome, hw.circuit, hw.connections]
    rfl
  · have hresult : ((Support.planning w.registry c cs).run c cs).result = .ok additions :=
      hadditions
    refine hafter.emit_comesTo ?_ ?_
    · simp only [take, outcome, Outcome.ofRun, hw.circuit, hw.connections, Option.none_or,
        hwrappers]
    · simp only [take, outcome, hw.circuit, hw.connections, hresult]
      rfl

theorem Connected.synthesizeConnectors_comesTo :
    w.ComesTo header [.synthesizeConnectors, .inferImplicit, .emit] (do
      let wrappers ← (Wrapper.wrapAll w.registry c c.connections).mapError
        (Stop.mk .synthesizeConnectors)
      let additions ← (Support.plan w.registry c c.connections).mapError (Stop.mk .inferImplicit)
      (Declarations.ofCircuit c c.connections wrappers additions header).mapError
        (Stop.mk .emit)) := by
  rw [← hw.forget, Wrapper.wrapAll_forget hw.faithful, hw.forget]
  obtain ⟨known, hafter⟩ := hw.take_outcome header .synthesizeConnectors (by decide)
  refine .cons ?_ (fun _ _ => hafter.declarations) fun wrappers hwrappers => ?_
  · simp only [outcome, hw.circuit, hw.connections]
    rfl
  · have hresult : ((Wrapper.wrapping w.registry c cs).run c cs).result = .ok wrappers := hwrappers
    refine hafter.inferImplicit_comesTo ?_
    simp only [take, outcome, hw.circuit, hw.connections, hresult]
    rfl

theorem Connected.inferShape_comesTo :
    w.ComesTo header [.inferShape, .synthesizeConnectors, .inferImplicit, .emit] (do
      (c.connections.checkShapes c).mapError (Stop.mk .inferShape)
      let wrappers ← (Wrapper.wrapAll w.registry c c.connections).mapError
        (Stop.mk .synthesizeConnectors)
      let additions ← (Support.plan w.registry c c.connections).mapError (Stop.mk .inferImplicit)
      (Declarations.ofCircuit c c.connections wrappers additions header).mapError
        (Stop.mk .emit)) := by
  have hshapes : c.connections.checkShapes c = cs.checkShapes c := by
    rw [← hw.forget, Connections.checkShapes_forget hw.faithful]
  rw [hshapes]
  obtain ⟨known, hafter⟩ := hw.take_outcome header .inferShape (by decide)
  refine .cons ?_ (fun _ _ => hafter.declarations) fun _ _ => hafter.synthesizeConnectors_comesTo
  simp only [outcome, hw.circuit, hw.connections]
  rfl

end

/-- A full run in a new workspace does the stages one after the other. -/
theorem run_new_comesTo (registry : Registry) (header : ModuleHeader) (n : Netlist) :
    (new registry n).ComesTo header Pass.emit.required (n.stages registry header) := by
  unfold Netlist.stages
  refine .cons rfl (fun _ _ => rfl) fun c hc => ?_
  have hcircuit : (new registry n).take ((new registry n).outcome header .buildGraph) =
      { new registry n with circuit := some c } := by
    simp only [take, outcome, new, hc]
    rfl
  rw [hcircuit, Circuit.stages]
  refine .cons rfl (fun _ _ => rfl) fun cs hcs => ?_
  obtain ⟨-, rfl⟩ := Connections.ofCircuit_eq_ok_iff.mp hcs
  have hconnected : Connected (({ new registry n with circuit := some c } : Workspace).take
      (({ new registry n with circuit := some c } : Workspace).outcome header .aggregate)) c
      c.connections :=
    ⟨rfl, by simp only [take, outcome, hcs]; rfl, Connections.faithful_connections c,
      Connections.forget_connections c, rfl⟩
  exact hconnected.inferShape_comesTo

theorem run_new_eq_error_iff {registry : Registry} {n : Netlist} {stop : Stop} :
    ((new registry n).run header .emit).result = .error stop ↔
      n.stages registry header = .error stop := by
  obtain ⟨hresult, -⟩ := run_new_comesTo registry header n
  rw [run, hresult]
  cases n.stages registry header <;> simp [Except.map]

end Workspace

theorem Netlist.lower_eq_stages (registry : Registry) (header : ModuleHeader) (n : Netlist) :
    n.lower registry header = (n.stages registry header).mapError (·.fault) := by
  obtain ⟨hresult, hdeclarations⟩ := Workspace.run_new_comesTo registry header n
  rw [lower, Workspace.run, hresult, hdeclarations]
  cases n.stages registry header <;> rfl

/-- A stage that fails does so for a reason of its own. -/
theorem Netlist.stages_reports (registry : Registry) (header : ModuleHeader) (n : Netlist) :
    FailsOnly (fun stop => stop.fault.ReportedBy stop.pass) (n.stages registry header) := by
  intro stop hstop
  have hready : Workspace.Ready [] (.new registry n) := nofun
  exact Workspace.runPasses_reports hready (by simp) (Pass.ordered_required .emit)
    (Workspace.run_new_eq_error_iff.mpr hstop)

end Schematic
