import Schematic.Proofs.Pipeline.Outcome

namespace Schematic

namespace Workspace

/-- What a pass has made stands in the workspace. The connections may know shapes, but only those of
the circuit. -/
def Made (w : Workspace) : Pass → Prop
  | .buildGraph => ∃ c, w.circuit = some c ∧ c.Closed
  | .aggregate => ∃ c cs, w.circuit = some c ∧ w.connections = some cs ∧ cs.Faithful c ∧
      cs.forget = c.connections
  | .inferShape => ∃ c, w.circuit = some c ∧ ∀ net ∈ c.nets, c.Uniform net
  | .synthesizeConnectors => ∃ wrappers, w.wrappers = some wrappers
  | .inferImplicit => ∃ c additions, w.circuit = some c ∧ w.additions = some additions ∧
      additions.Located c.connections
  | .emit => ∃ declarations, w.declarations = some declarations

/-- Some passes have been run. -/
def Ready (done : List Pass) (w : Workspace) : Prop :=
  ∀ p ∈ done, w.Made p

variable {header : ModuleHeader} {w : Workspace} {p : Pass}

theorem Ready.connected {done : List Pass} (hready : Ready done w) (hgraph : .buildGraph ∈ done)
    (hgrouped : .aggregate ∈ done) :
    ∃ c cs, w.circuit = some c ∧ w.connections = some cs ∧ c.Closed ∧ cs.Faithful c ∧
      cs.forget = c.connections := by
  obtain ⟨c, hc, hclosed⟩ := hready .buildGraph hgraph
  obtain ⟨c', cs, hc', hcs, hfaithful, hforget⟩ := hready .aggregate hgrouped
  obtain rfl : c = c' := Option.some.inj (hc.symm.trans hc')
  exact ⟨c, cs, hc, hcs, hclosed, hfaithful, hforget⟩

theorem Ready.uniform {done : List Pass} (hready : Ready done w) (hshapes : .inferShape ∈ done)
    {c : Circuit} (hc : w.circuit = some c) : ∀ net ∈ c.nets, c.Uniform net := by
  obtain ⟨c', hc', huniform⟩ := hready .inferShape hshapes
  obtain rfl : c = c' := Option.some.inj (hc.symm.trans hc')
  exact huniform

theorem map_eq_error_iff {α : Type} {x : Except Fault α} {f : Fault} :
    x.map (fun _ => ()) = .error f ↔ x = .error f := by
  cases x <;> simp [Except.map]

theorem map_eq_ok_iff {α : Type} {x : Except Fault α} :
    x.map (fun _ => ()) = .ok () ↔ ∃ a, x = .ok a := by
  cases x <;> simp [Except.map]

/-- A pass that is run after those it needs fails for its own reasons only. -/
theorem outcome_reports (hready : Ready p.before w) {f : Fault}
    (hf : (w.outcome header p).result = .error f) : f.ReportedBy p := by
  cases p with
  | buildGraph => exact Circuit.ofNetlist_reports w.registry w.netlist f (map_eq_error_iff.mp hf)
  | aggregate =>
    obtain ⟨c, hc, hclosed⟩ := hready .buildGraph (by decide)
    simp only [outcome, hc, map_eq_error_iff] at hf
    exact Connections.ofCircuit_reports hclosed f hf
  | inferShape =>
    obtain ⟨c, cs, hc, hcs, hclosed, hfaithful, hforget⟩ :=
      hready.connected (by decide) (by decide)
    simp only [outcome, hc, hcs, Outcome.ofRun, map_eq_error_iff] at hf
    change cs.checkShapes c = .error f at hf
    rw [← Connections.checkShapes_forget hfaithful, hforget] at hf
    exact Connections.checkShapes_reports hclosed f hf
  | synthesizeConnectors =>
    obtain ⟨c, cs, hc, hcs, hclosed, hfaithful, hforget⟩ :=
      hready.connected (by decide) (by decide)
    simp only [outcome, hc, hcs, Outcome.ofRun, map_eq_error_iff] at hf
    change Wrapper.wrapAll w.registry c cs = .error f at hf
    rw [← Wrapper.wrapAll_forget hfaithful, hforget] at hf
    exact Wrapper.wrapAll_reports w.registry hclosed (hready.uniform (by decide) hc) f hf
  | inferImplicit =>
    obtain ⟨c, cs, hc, hcs, hclosed, hfaithful, hforget⟩ :=
      hready.connected (by decide) (by decide)
    obtain ⟨a, ha, -⟩ := Support.plan_located hclosed.targets w.registry
    simp only [outcome, hc, hcs, Outcome.ofRun, map_eq_error_iff] at hf
    change Support.plan w.registry c cs = .error f at hf
    rw [← Support.plan_forget hfaithful, hforget, ha] at hf
    cases hf
  | emit =>
    obtain ⟨c, cs, hc, hcs, hclosed, hfaithful, hforget⟩ :=
      hready.connected (by decide) (by decide)
    obtain ⟨wrappers, hwrappers⟩ := hready .synthesizeConnectors (by decide)
    obtain ⟨c', additions, hc', hadditions, hlocated⟩ := hready .inferImplicit (by decide)
    obtain rfl : c = c' := Option.some.inj (hc.symm.trans hc')
    simp only [outcome, hc, hcs, hwrappers, hadditions, Outcome.ofRun, map_eq_error_iff] at hf
    change Declarations.ofCircuit c cs wrappers additions header = .error f at hf
    rw [← Declarations.ofCircuit_forget hfaithful, hforget] at hf
    exact Declarations.ofCircuit_reports hclosed (hready.uniform (by decide) hc) hlocated _ _ f hf

theorem made_of_ok (hready : Ready p.before w) (hok : (w.outcome header p).result = .ok ()) :
    (w.take (w.outcome header p)).Made p := by
  cases p with
  | buildGraph =>
    obtain ⟨c, hc⟩ := Option.isSome_iff_exists.mp (isSome_toOption_iff.mpr hok)
    obtain ⟨hresolvable, rfl⟩ := Circuit.ofNetlist_eq_ok_iff.mp (eq_ok_of_toOption_eq_some hc)
    refine ⟨_, ?_, hresolvable.closed w.registry⟩
    simp only [take, outcome, hc, Option.some_or]
  | aggregate =>
    obtain ⟨c, hc, -⟩ := hready .buildGraph (by decide)
    simp only [outcome, hc, ← isSome_toOption_iff] at hok
    obtain ⟨cs, hcs⟩ := Option.isSome_iff_exists.mp hok
    obtain ⟨-, rfl⟩ := Connections.ofCircuit_eq_ok_iff.mp (eq_ok_of_toOption_eq_some hcs)
    refine ⟨c, _, ?_, ?_, Connections.faithful_connections c, Connections.forget_connections c⟩
    · simp only [take, outcome, hc, Option.none_or]
    · simp only [take, outcome, hc, hcs, Option.some_or]
  | inferShape =>
    obtain ⟨c, cs, hc, hcs, hclosed, hfaithful, hforget⟩ :=
      hready.connected (by decide) (by decide)
    simp only [outcome, hc, hcs, Outcome.ofRun, map_eq_ok_iff] at hok
    obtain ⟨_, hok⟩ := hok
    change cs.checkShapes c = .ok () at hok
    rw [← Connections.checkShapes_forget hfaithful, hforget] at hok
    refine ⟨c, ?_, (Connections.checkShapes_connections_eq_ok_iff hclosed).mp hok⟩
    simp only [take, outcome, hc, hcs, Outcome.ofRun, Option.none_or]
  | synthesizeConnectors =>
    obtain ⟨made, hmade⟩ := Option.isSome_iff_exists.mp (fills_of_ok .wrappers hok rfl)
    exact ⟨made, by simp only [take, hmade, Option.some_or]⟩
  | inferImplicit =>
    obtain ⟨c, cs, hc, hcs, hclosed, hfaithful, hforget⟩ :=
      hready.connected (by decide) (by decide)
    obtain ⟨a, ha, hlocated⟩ := Support.plan_located hclosed.targets w.registry
    rw [← hforget, Support.plan_forget hfaithful] at ha
    have hmade : ((Support.planning w.registry c cs).run c cs).result = .ok a := ha
    refine ⟨c, a, ?_, ?_, hlocated⟩
    · simp only [take, outcome, hc, hcs, Outcome.ofRun, Option.none_or]
    · simp only [take, outcome, hc, hcs, hmade, Except.toOption, Option.some_or]
  | emit =>
    obtain ⟨made, hmade⟩ := Option.isSome_iff_exists.mp (fills_of_ok .declarations hok rfl)
    exact ⟨made, by simp only [take, hmade, Option.some_or]⟩

/-- Only the grouping of labels makes new connections; another pass may add to what they know. -/
theorem connections_take (hp : p ≠ .aggregate) {c : Circuit} {cs : Connections}
    (hc : w.circuit = some c) (hcs : w.connections = some cs) :
    ∃ asked, (w.take (w.outcome header p)).connections = some (cs.remember c asked) := by
  cases p with
  | aggregate => exact absurd rfl hp
  | buildGraph =>
    refine ⟨[], ?_⟩
    rw [cs.remember_nil]
    exact hcs
  | inferShape | synthesizeConnectors | inferImplicit =>
    simp only [take, outcome, hc, hcs, Outcome.ofRun, Option.some_or, Inquiry.run_eq]
    exact ⟨_, rfl⟩
  | emit =>
    simp only [take, outcome, hc, hcs, Outcome.ofRun, Inquiry.run_eq]
    cases w.wrappers with
    | none => exact ⟨[], congrArg some (cs.remember_nil c).symm⟩
    | some wrappers =>
      cases w.additions with
      | none => exact ⟨[], congrArg some (cs.remember_nil c).symm⟩
      | some additions => exact ⟨_, rfl⟩

/-- A pass leaves alone what other passes have made before it, apart from what connections know. -/
theorem made_take {done : List Pass} (hready : Ready done w) (hdone : ∀ q ∈ done, q.before ⊆ done)
    (hp : p ∉ done) {q : Pass} (hq : q ∈ done) : (w.take (w.outcome header p)).Made q := by
  -- Only its maker fills a place, and all makers that count here are done; the connections alone
  -- are written again by later passes.
  have hkept : ∀ place : Place, place.maker ∈ done → place ≠ .connections →
      (w.take (w.outcome header p)).Same w place := by
    intro place hplace hne
    refine same_take_of_not_fills (fun hfills => ?_) w
    obtain ⟨hmaker, -⟩ | ⟨hconnections, -⟩ := fills_cases hfills
    · exact hp (hmaker ▸ hplace)
    · exact hne hconnections
  have hmade := hready q hq
  have hgraph : q ≠ .buildGraph → .buildGraph ∈ done := by
    intro hne
    apply hdone q hq
    cases q <;> first | exact absurd rfl hne | decide
  cases q with
  | buildGraph =>
    obtain ⟨c, hc, hclosed⟩ := hmade
    exact ⟨c, Eq.trans (hkept .circuit hq nofun) hc, hclosed⟩
  | aggregate =>
    obtain ⟨c, cs, hc, hcs, hfaithful, hforget⟩ := hmade
    have hother : p ≠ .aggregate := by
      rintro rfl
      exact hp hq
    obtain ⟨asked, hasked⟩ := connections_take hother hc hcs
    exact ⟨c, _, Eq.trans (hkept .circuit (hgraph nofun) nofun) hc, hasked,
      hfaithful.remember asked, (cs.forget_remember c asked).trans hforget⟩
  | inferShape =>
    obtain ⟨c, hc, huniform⟩ := hmade
    exact ⟨c, Eq.trans (hkept .circuit (hgraph nofun) nofun) hc, huniform⟩
  | synthesizeConnectors =>
    obtain ⟨wrappers, hwrappers⟩ := hmade
    exact ⟨wrappers, Eq.trans (hkept .wrappers hq nofun) hwrappers⟩
  | inferImplicit =>
    obtain ⟨c, additions, hc, hadditions, hlocated⟩ := hmade
    exact ⟨c, additions, Eq.trans (hkept .circuit (hgraph nofun) nofun) hc,
      Eq.trans (hkept .additions hq nofun) hadditions, hlocated⟩
  | emit =>
    obtain ⟨declarations, hdeclarations⟩ := hmade
    exact ⟨declarations, Eq.trans (hkept .declarations hq nofun) hdeclarations⟩

end Workspace

end Schematic
