import Schematic.Proofs.Pipeline.Readiness

namespace Schematic

namespace Pass

/-- After some passes are done, the others come once each, and each after all that go before it. -/
def Ordered (done : List Pass) : List Pass → Prop
  | [] => True
  | p :: rest => p ∉ done ∧ p.before ⊆ done ∧ Ordered (done ++ [p]) rest

instance decidableOrdered : (done passes : List Pass) → Decidable (Ordered done passes)
  | _, [] => inferInstanceAs (Decidable True)
  | done, p :: rest =>
    have := decidableOrdered (done ++ [p]) rest
    inferInstanceAs (Decidable (p ∉ done ∧ p.before ⊆ done ∧ Ordered (done ++ [p]) rest))

theorem ordered_required (t : Pass) : Ordered [] t.required := by
  cases t <;> decide

theorem Ordered.notMem {passes done : List Pass} (hordered : Ordered done passes) {p : Pass}
    (hp : p ∈ passes) : p ∉ done := by
  induction passes generalizing done with
  | nil => cases hp
  | cons q rest ih =>
    obtain ⟨hq, -, hrest⟩ := hordered
    cases hp with
    | head => exact hq
    | tail _ hp =>
      intro hdone
      exact ih hrest hp (List.mem_append_left [q] hdone)

theorem Ordered.head_notMem {done rest : List Pass} {p : Pass}
    (hordered : Ordered done (p :: rest)) : p ∉ rest := by
  intro hp
  exact hordered.2.2.notMem hp (List.mem_append_right done List.mem_cons_self)

end Pass

/-- The passes of a run that succeeded: those before the one that failed, if any did. -/
def Run.passed (passes : List Pass) (r : Run) : List Pass :=
  match r.result with
  | .ok () => passes
  | .error stop => passes.takeWhile (· ≠ stop.pass)

namespace Workspace

variable {header : ModuleHeader} {w v : Workspace} {p : Pass} {done passes rest : List Pass}

theorem runPasses_cons_of_error {f : Fault} (hf : (w.outcome header p).result = .error f) :
    w.runPasses header (p :: rest) = ⟨.error ⟨p, f⟩, w.take (w.outcome header p),
      (w.outcome header p).events ++ [.passComplete p false]⟩ := by
  simp only [runPasses, step_eq, hf]

theorem runPasses_cons_of_ok (hok : (w.outcome header p).result = .ok ()) :
    w.runPasses header (p :: rest) =
      { (w.take (w.outcome header p)).runPasses header rest with
        events := (w.outcome header p).events ++ .passComplete p true ::
          ((w.take (w.outcome header p)).runPasses header rest).events } := by
  simp only [runPasses, step_eq, hok]

private theorem stop_mem {stop : Stop} (hstop : (w.runPasses header passes).result = .error stop) :
    stop.pass ∈ passes := by
  induction passes generalizing w with
  | nil => cases hstop
  | cons p rest ih =>
    cases hresult : (w.outcome header p).result with
    | error f =>
      rw [runPasses_cons_of_error hresult] at hstop
      cases hstop
      exact List.mem_cons_self
    | ok _ =>
      rw [runPasses_cons_of_ok hresult] at hstop
      exact List.mem_cons_of_mem p (ih hstop)

private theorem passed_cons_of_error {f : Fault} (hf : (w.outcome header p).result = .error f) :
    (w.runPasses header (p :: rest)).passed (p :: rest) = [] := by
  rw [runPasses_cons_of_error hf, Run.passed]
  simp

private theorem passed_cons_of_ok (hok : (w.outcome header p).result = .ok ()) (hp : p ∉ rest) :
    (w.runPasses header (p :: rest)).passed (p :: rest) =
      p :: ((w.take (w.outcome header p)).runPasses header rest).passed rest := by
  rw [runPasses_cons_of_ok hok, Run.passed, Run.passed]
  cases hresult : ((w.take (w.outcome header p)).runPasses header rest).result with
  | ok _ => rfl
  | error stop =>
    have hne : p ≠ stop.pass := by
      rintro rfl
      exact hp (stop_mem hresult)
    simp [hne]

/-- Taking in the same keeps two workspaces in agreement. -/
theorem Agree.take (hagree : Agree done w v) (o : Outcome) :
    Agree done (w.take o) (v.take o) := by
  refine ⟨hagree.netlist, hagree.registry, fun place hplace => ?_⟩
  by_cases hfills : o.Fills place
  · exact same_take_of_fills hfills w v
  · have hw := same_take_of_not_fills hfills w
    have hv := same_take_of_not_fills hfills v
    exact hw.trans ((hagree.same place hplace).trans hv.symm)

theorem Agree.take_of_ok (hagree : Agree done w v) (hok : (w.outcome header p).result = .ok ()) :
    Agree (done ++ [p]) (w.take (w.outcome header p)) (v.take (w.outcome header p)) := by
  have hafter := hagree.take (w.outcome header p)
  refine ⟨hafter.netlist, hafter.registry, fun place hplace => ?_⟩
  obtain hdone | hmaker := List.mem_append.mp hplace
  · exact hafter.same place hdone
  · exact same_take_of_fills (fills_of_ok place hok (List.mem_singleton.mp hmaker)) w v

/-- The passes of a run that succeed do so with equal products, however two workspaces differ in
what these passes make. -/
theorem runPasses_agree (hagree : Agree done w v) (hordered : Pass.Ordered done passes) :
    (w.runPasses header passes).result = (v.runPasses header passes).result ∧
      (w.runPasses header passes).events = (v.runPasses header passes).events ∧
      Agree (done ++ (w.runPasses header passes).passed passes)
        (w.runPasses header passes).workspace (v.runPasses header passes).workspace := by
  induction passes generalizing done w v with
  | nil => exact ⟨rfl, rfl, by simpa [runPasses, Run.passed] using hagree⟩
  | cons p rest ih =>
    have hp := hordered.head_notMem
    obtain ⟨-, hbefore, hrest⟩ := hordered
    have hsame : w.outcome header p = v.outcome header p := outcome_congr hagree hbefore
    cases hresult : (w.outcome header p).result with
    | error f =>
      rw [passed_cons_of_error hresult, List.append_nil, runPasses_cons_of_error hresult,
        runPasses_cons_of_error (hsame ▸ hresult), ← hsame]
      exact ⟨rfl, rfl, hagree.take _⟩
    | ok _ =>
      obtain ⟨hres, hevents, hafter⟩ := ih (hagree.take_of_ok hresult) hrest
      rw [passed_cons_of_ok hresult hp, runPasses_cons_of_ok hresult,
        runPasses_cons_of_ok (hsame ▸ hresult), ← hsame]
      refine ⟨hres, ?_, ?_⟩
      · rw [hevents]
      · rwa [List.append_cons]

/-- What no succeeding pass makes stays as it was. -/
theorem runPasses_frame (hordered : Pass.Ordered done passes) {place : Place}
    (hplace : place.maker ∉ done ++ (w.runPasses header passes).passed passes) :
    (w.runPasses header passes).workspace.Same w place := by
  induction passes generalizing done w with
  | nil => exact Same.refl w place
  | cons p rest ih =>
    have hp := hordered.head_notMem
    obtain ⟨-, hbefore, hrest⟩ := hordered
    have hdone : place.maker ∉ done := fun hmem => hplace (List.mem_append_left _ hmem)
    -- A pass that notes shapes comes after the connections were made, and these are then not the
    -- place in question.
    have hconnections : ¬ (place = .connections ∧ .aggregate ∈ p.before) := by
      rintro ⟨rfl, hmem⟩
      exact hdone (hbefore hmem)
    cases hresult : (w.outcome header p).result with
    | error f =>
      rw [runPasses_cons_of_error hresult]
      refine same_take_of_not_fills (fun hfills => ?_) w
      obtain ⟨-, hok⟩ | hnoted := fills_cases hfills
      · cases hresult.symm.trans hok
      · exact hconnections hnoted
    | ok _ =>
      rw [passed_cons_of_ok hresult hp, List.append_cons] at hplace
      rw [runPasses_cons_of_ok hresult]
      refine (ih hrest hplace).trans (same_take_of_not_fills (fun hfills => ?_) w)
      obtain ⟨hmaker, -⟩ | hnoted := fills_cases hfills
      · exact hplace (by simp [hmaker])
      · exact hconnections hnoted

/-- A run stops for a reason that the failing pass is the one to report. -/
theorem runPasses_reports (hready : Ready done w) (hdone : ∀ q ∈ done, q.before ⊆ done)
    (hordered : Pass.Ordered done passes) {stop : Stop}
    (hstop : (w.runPasses header passes).result = .error stop) :
    stop.fault.ReportedBy stop.pass := by
  induction passes generalizing done w with
  | nil => cases hstop
  | cons p rest ih =>
    obtain ⟨hp, hbefore, hrest⟩ := hordered
    have hneeds : Ready p.before w := fun q hq => hready q (hbefore hq)
    cases hresult : (w.outcome header p).result with
    | error f =>
      rw [runPasses_cons_of_error hresult] at hstop
      cases hstop
      exact outcome_reports hneeds hresult
    | ok _ =>
      rw [runPasses_cons_of_ok hresult] at hstop
      have hready' : Ready (done ++ [p]) (w.take (w.outcome header p)) := by
        intro q hq
        obtain hq | hq := List.mem_append.mp hq
        · exact made_take hready hdone hp hq
        · cases List.mem_singleton.mp hq
          exact made_of_ok hneeds hresult
      refine ih hready' (fun q hq r hr => ?_) hrest hstop
      apply List.mem_append_left
      obtain hq | hq := List.mem_append.mp hq
      · exact hdone q hq hr
      · cases List.mem_singleton.mp hq
        exact hbefore hr

private theorem runPasses_inputs : (w.runPasses header passes).workspace.netlist = w.netlist ∧
    (w.runPasses header passes).workspace.registry = w.registry := by
  induction passes generalizing w with
  | nil => exact ⟨rfl, rfl⟩
  | cons p rest ih =>
    cases hresult : (w.outcome header p).result with
    | error f =>
      rw [runPasses_cons_of_error hresult]
      exact ⟨rfl, rfl⟩
    | ok _ =>
      rw [runPasses_cons_of_ok hresult]
      exact ih

/-- What can be done with a workspace. -/
inductive Action where
  | run (header : ModuleHeader) (terminal : Pass)
  | load (netlist : Netlist)

def act (w : Workspace) : Action → Workspace
  | .run header terminal => (w.run header terminal).workspace
  | .load netlist => { w with netlist }

/-- The workspace after some actions. -/
def replay (w : Workspace) (history : List Action) : Workspace :=
  history.foldl act w

/-- The netlist that was loaded last. -/
def loaded (netlist : Netlist) : List Action → Netlist
  | [] => netlist
  | .run .. :: rest => loaded netlist rest
  | .load other :: rest => loaded other rest

private theorem replay_inputs (w : Workspace) (history : List Action) :
    (w.replay history).netlist = loaded w.netlist history ∧
      (w.replay history).registry = w.registry := by
  induction history generalizing w with
  | nil => exact ⟨rfl, rfl⟩
  | cons action rest ih =>
    obtain ⟨hnetlist, hregistry⟩ := ih (w.act action)
    cases action with
    | load netlist => exact ⟨hnetlist, hregistry⟩
    | run header terminal =>
      obtain ⟨hnetlist', hregistry'⟩ := @runPasses_inputs header w terminal.required
      refine ⟨hnetlist.trans ?_, hregistry.trans hregistry'⟩
      exact congrArg (loaded · rest) hnetlist'

/-- After any runs and changes of the netlist, a run does what it does in a new workspace for the
netlist that was loaded last. What its succeeding passes make is what they make there; what other
passes make, the failing one and those after it included, is as before the run. The only internal
error is that of two labels on one port, from the pass that groups labels. -/
theorem run_replay_eq_run_new (w : Workspace) (history : List Action) (header : ModuleHeader)
    (terminal : Pass) :
    let before := w.replay history
    let after := before.run header terminal
    let fresh := (new w.registry (loaded w.netlist history)).run header terminal
    before.registry = w.registry ∧ before.netlist = loaded w.netlist history ∧
      after.result = fresh.result ∧ after.events = fresh.events ∧
      (∀ place : Place, place.maker ∈ after.passed terminal.required →
        after.workspace.Same fresh.workspace place) ∧
      (∀ place : Place, place.maker ∉ after.passed terminal.required →
        after.workspace.Same before place) ∧
      ∀ stop detail, after.result = .error stop → stop.fault.problem = .internal detail →
        stop.pass = .aggregate ∧
          ∃ node port owner label, stop.fault = .duplicateLabel node port owner label := by
  intro before after fresh
  obtain ⟨hnetlist, hregistry⟩ := w.replay_inputs history
  have hordered := terminal.ordered_required
  have hagree : Agree [] before (new w.registry (loaded w.netlist history)) :=
    ⟨hnetlist, hregistry, nofun⟩
  obtain ⟨hresult, hevents, hafter⟩ := @runPasses_agree header _ _ _ _ hagree hordered
  refine ⟨hregistry, hnetlist, hresult, hevents, hafter.same, ?_, ?_⟩
  · intro place hplace
    exact runPasses_frame hordered hplace
  · intro stop detail hstop hinternal
    have hready : Ready [] before := nofun
    have hreporter := runPasses_reports hready (by simp) hordered hstop
    exact hreporter.eq_duplicateLabel hinternal

/-- A part whose only port carries labels with the given names. -/
def labelledPart (names : List String) : Netlist where
  nodes := [("n", {
    id := "n", name := "U1", type := "Part", superClasses := [], arguments := []
    ports := [⟨"a", "Passive", false, none⟩] })]
  labels := names.map fun name => (name, ⟨name, "n", 0⟩)

theorem run_replay_labelledPart :
    let before := (new .builtin (labelledPart ["x"])).replay
      [.run {} .emit, .load (labelledPart ["x", "y"])]
    let after := before.run {} .emit
    ∃ stop detail declarations, after.result = .error stop ∧
      stop.fault.problem = .internal detail ∧ stop.pass = .aggregate ∧
      before.declarations = some declarations ∧
      after.workspace.declarations = some declarations ∧
      after.workspace.circuit =
        ((new .builtin (labelledPart ["x", "y"])).run {} .emit).workspace.circuit := by
  intro before after
  obtain ⟨-, -, -, -, hsame, hkept, hinternal⟩ := run_replay_eq_run_new
    (new .builtin (labelledPart ["x"])) [.run {} .emit, .load (labelledPart ["x", "y"])] {} .emit
  have hresult : after.result = .error ⟨.aggregate, .duplicateLabel "U1" "a" "x" "y"⟩ := rfl
  have hpassed : after.passed Pass.emit.required = [.buildGraph] := by
    rw [Run.passed, hresult]
    decide
  have hold : before.declarations = some {
      header := {}
      connectors := []
      blocks := [⟨"U1", "Part", []⟩]
      connects := [⟨"x", [.port "U1" "a"]⟩] } := by
    decide +kernel
  refine ⟨_, _, _, hresult, rfl, (hinternal _ _ hresult rfl).1, hold, ?_, ?_⟩
  · exact Eq.trans (hkept .declarations (by rw [hpassed]; decide)) hold
  · exact hsame .circuit (by rw [hpassed]; decide)

end Workspace

end Schematic
