import Schematic.Pipeline.Workspace
import Schematic.Proofs.Pipeline.Faults

namespace Schematic

/-- The passes that run before a pass when it is asked for. -/
def Pass.before (p : Pass) : List Pass :=
  p.required.dropLast

/-- Where a workspace keeps what passes make. Shapes have no place of their own: they are kept with
the connections. -/
inductive Workspace.Place where
  | circuit
  | connections
  | wrappers
  | additions
  | declarations
deriving DecidableEq, Repr

def Workspace.Place.maker : Place → Pass
  | circuit => .buildGraph
  | connections => .aggregate
  | wrappers => .synthesizeConnectors
  | additions => .inferImplicit
  | declarations => .emit

/-- What comes of a pass. A place that gets nothing new stays as it is. -/
structure Outcome where
  result : Except Fault Unit
  circuit : Option Circuit := none
  connections : Option Connections := none
  wrappers : Option (List Wrapper) := none
  additions : Option Support.Additions := none
  declarations : Option Declarations := none
  events : List Event := []

/-- What comes of the run of an inquiry, apart from the place that its result goes to. -/
def Outcome.ofRun {α : Type} (o : Inquiry.Outcome α) : Outcome where
  result := o.result.map fun _ => ()
  connections := some o.connections
  events := o.events

/-- The place gets something new. -/
def Outcome.Fills (o : Outcome) : Workspace.Place → Prop
  | .circuit => o.circuit.isSome
  | .connections => o.connections.isSome
  | .wrappers => o.wrappers.isSome
  | .additions => o.additions.isSome
  | .declarations => o.declarations.isSome

namespace Workspace

/-- Two workspaces keep the same at a place. -/
def Same (w v : Workspace) : Place → Prop
  | .circuit => w.circuit = v.circuit
  | .connections => w.connections = v.connections
  | .wrappers => w.wrappers = v.wrappers
  | .additions => w.additions = v.additions
  | .declarations => w.declarations = v.declarations

theorem Same.refl (w : Workspace) (place : Place) : w.Same w place := by
  cases place <;> rfl

theorem Same.symm {w v : Workspace} {place : Place} (hwv : w.Same v place) : v.Same w place := by
  cases place <;> exact Eq.symm hwv

theorem Same.trans {u v w : Workspace} {place : Place} (huv : u.Same v place)
    (hvw : v.Same w place) : u.Same w place := by
  cases place <;> exact Eq.trans huv hvw

/-- The workspace with what a pass made. -/
def take (w : Workspace) (o : Outcome) : Workspace where
  netlist := w.netlist
  registry := w.registry
  circuit := o.circuit.or w.circuit
  connections := o.connections.or w.connections
  wrappers := o.wrappers.or w.wrappers
  additions := o.additions.or w.additions
  declarations := o.declarations.or w.declarations

theorem same_take_of_fills {o : Outcome} {place : Place} (ho : o.Fills place) (w v : Workspace) :
    (w.take o).Same (v.take o) place := by
  cases place <;>
  · obtain ⟨made, hmade⟩ := Option.isSome_iff_exists.mp ho
    simp only [Same, take, hmade, Option.some_or]

theorem same_take_of_not_fills {o : Outcome} {place : Place} (ho : ¬ o.Fills place)
    (w : Workspace) : (w.take o).Same w place := by
  cases place <;>
  · have hnone := Option.not_isSome_iff_eq_none.mp ho
    simp only [Same, take, hnone, Option.none_or]

/-- What comes of a pass in a workspace. -/
def outcome (header : ModuleHeader) (w : Workspace) : Pass → Outcome
  | .buildGraph =>
    let made := Circuit.ofNetlist w.registry w.netlist
    { result := made.map fun _ => (), circuit := made.toOption }
  | .aggregate =>
    match w.circuit with
    | none => { result := .error (.inputsMissing .aggregate) }
    | some circuit =>
      let made := Connections.ofCircuit circuit
      { result := made.map fun _ => (), connections := made.toOption }
  | .inferShape =>
    match w.circuit, w.connections with
    | some circuit, some cs => .ofRun (cs.checking.run circuit cs)
    | _, _ => { result := .error (.inputsMissing .inferShape) }
  | .synthesizeConnectors =>
    match w.circuit, w.connections with
    | some circuit, some cs =>
      let o := (Wrapper.wrapping w.registry circuit cs).run circuit cs
      { Outcome.ofRun o with wrappers := o.result.toOption }
    | _, _ => { result := .error (.inputsMissing .synthesizeConnectors) }
  | .inferImplicit =>
    match w.circuit, w.connections with
    | some circuit, some cs =>
      let o := (Support.planning w.registry circuit cs).run circuit cs
      { Outcome.ofRun o with additions := o.result.toOption }
    | _, _ => { result := .error (.inputsMissing .inferImplicit) }
  | .emit =>
    match w.circuit, w.connections, w.wrappers, w.additions with
    | some circuit, some cs, some wrappers, some additions =>
      let o := (Declarations.emitting circuit cs wrappers additions header).run circuit cs
      { Outcome.ofRun o with declarations := o.result.toOption }
    | _, _, _, _ => { result := .error (.inputsMissing .emit) }

theorem step_eq (header : ModuleHeader) (w : Workspace) (p : Pass) :
    w.step header p = ⟨(w.outcome header p).result, w.take (w.outcome header p),
      (w.outcome header p).events⟩ := by
  obtain ⟨netlist, registry, circuit, connections, wrappers, additions, declarations⟩ := w
  cases p with
  | buildGraph =>
    simp only [step, buildGraph, outcome]
    cases Circuit.ofNetlist registry netlist <;> rfl
  | aggregate =>
    cases circuit with
    | none => rfl
    | some c =>
      simp only [step, aggregate, outcome]
      cases Connections.ofCircuit c <;> rfl
  | inferShape =>
    cases circuit with
    | none => rfl
    | some c =>
      cases connections with
      | none => rfl
      | some cs =>
        simp only [step, inferShape, inquire, outcome, Outcome.ofRun]
        cases (cs.checking.run c cs).result <;> rfl
  | synthesizeConnectors =>
    cases circuit with
    | none => rfl
    | some c =>
      cases connections with
      | none => rfl
      | some cs =>
        simp only [step, synthesizeConnectors, inquire, outcome, Outcome.ofRun]
        cases ((Wrapper.wrapping registry c cs).run c cs).result <;> rfl
  | inferImplicit =>
    cases circuit with
    | none => rfl
    | some c =>
      cases connections with
      | none => rfl
      | some cs =>
        simp only [step, inferImplicit, inquire, outcome, Outcome.ofRun]
        cases ((Support.planning registry c cs).run c cs).result <;> rfl
  | emit =>
    cases circuit with
    | none => rfl
    | some c =>
      cases connections with
      | none => rfl
      | some cs =>
        cases wrappers with
        | none => rfl
        | some ws =>
          cases additions with
          | none => rfl
          | some a =>
            simp only [step, emit, inquire, outcome, Outcome.ofRun]
            cases ((Declarations.emitting c cs ws a header).run c cs).result <;> rfl

/-- Two workspaces for the same netlist keep the same of what some passes make. -/
structure Agree (done : List Pass) (w v : Workspace) : Prop where
  netlist : w.netlist = v.netlist
  registry : w.registry = v.registry
  same : ∀ place, place.maker ∈ done → w.Same v place

variable {header : ModuleHeader} {w v : Workspace} {p : Pass} {place : Place}

/-- A pass looks only at what the passes before it have made. -/
theorem outcome_congr {done : List Pass} (hagree : Agree done w v) (hbefore : p.before ⊆ done) :
    w.outcome header p = v.outcome header p := by
  have hsame : ∀ place : Place, place.maker ∈ p.before → w.Same v place :=
    fun place hplace => hagree.same place (hbefore hplace)
  cases p with
  | buildGraph => rw [outcome, outcome, hagree.registry, hagree.netlist]
  | aggregate =>
    have hcircuit : w.circuit = v.circuit := hsame .circuit (by decide)
    rw [outcome, outcome, hcircuit]
  | inferShape =>
    have hcircuit : w.circuit = v.circuit := hsame .circuit (by decide)
    have hconnections : w.connections = v.connections := hsame .connections (by decide)
    rw [outcome, outcome, hcircuit, hconnections]
  | synthesizeConnectors | inferImplicit =>
    have hcircuit : w.circuit = v.circuit := hsame .circuit (by decide)
    have hconnections : w.connections = v.connections := hsame .connections (by decide)
    rw [outcome, outcome, hcircuit, hconnections, hagree.registry]
  | emit =>
    have hcircuit : w.circuit = v.circuit := hsame .circuit (by decide)
    have hconnections : w.connections = v.connections := hsame .connections (by decide)
    have hwrappers : w.wrappers = v.wrappers := hsame .wrappers (by decide)
    have hadditions : w.additions = v.additions := hsame .additions (by decide)
    rw [outcome, outcome, hcircuit, hconnections, hwrappers, hadditions]

theorem isSome_toOption_iff {α : Type} {x : Except Fault α} :
    x.toOption.isSome ↔ x.map (fun _ => ()) = .ok () := by
  cases x <;> simp [Except.toOption, Except.map]

/-- A pass that succeeds fills its place. -/
theorem fills_of_ok (place : Place) (hok : (w.outcome header p).result = .ok ())
    (hplace : place.maker = p) : (w.outcome header p).Fills place := by
  subst hplace
  cases place with
  | circuit => exact isSome_toOption_iff.mpr hok
  | connections =>
    simp only [Place.maker, outcome, Outcome.Fills] at hok ⊢
    split at hok
    · cases hok
    · exact isSome_toOption_iff.mpr hok
  | wrappers | additions | declarations =>
    simp only [Place.maker, outcome, Outcome.Fills] at hok ⊢
    split at hok
    · exact isSome_toOption_iff.mpr hok
    · cases hok

/-- A pass fills its own place if it succeeds, and may note shapes with connections that were made
before it. -/
theorem fills_cases (hfills : (w.outcome header p).Fills place) :
    place.maker = p ∧ (w.outcome header p).result = .ok () ∨
      place = .connections ∧ .aggregate ∈ p.before := by
  cases p with
  | buildGraph =>
    cases place with
    | circuit => exact .inl ⟨rfl, isSome_toOption_iff.mp hfills⟩
    | _ => cases hfills
  | aggregate =>
    simp only [outcome] at hfills ⊢
    split at hfills
    · cases place <;> cases hfills
    · cases place with
      | connections => exact .inl ⟨rfl, isSome_toOption_iff.mp hfills⟩
      | _ => cases hfills
  | inferShape =>
    simp only [outcome] at hfills
    split at hfills
    · cases place with
      | connections => exact .inr ⟨rfl, by decide⟩
      | _ => cases hfills
    · cases place <;> cases hfills
  | synthesizeConnectors =>
    simp only [outcome] at hfills ⊢
    split at hfills
    · cases place with
      | connections => exact .inr ⟨rfl, by decide⟩
      | wrappers => exact .inl ⟨rfl, isSome_toOption_iff.mp hfills⟩
      | _ => cases hfills
    · cases place <;> cases hfills
  | inferImplicit =>
    simp only [outcome] at hfills ⊢
    split at hfills
    · cases place with
      | connections => exact .inr ⟨rfl, by decide⟩
      | additions => exact .inl ⟨rfl, isSome_toOption_iff.mp hfills⟩
      | _ => cases hfills
    · cases place <;> cases hfills
  | emit =>
    simp only [outcome] at hfills ⊢
    split at hfills
    · cases place with
      | connections => exact .inr ⟨rfl, by decide⟩
      | declarations => exact .inl ⟨rfl, isSome_toOption_iff.mp hfills⟩
      | _ => cases hfills
    · cases place <;> cases hfills

end Workspace

end Schematic
