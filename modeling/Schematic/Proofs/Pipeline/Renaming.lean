import Schematic.Proofs.Pipeline.Outline

namespace Schematic

def Component.anonymous (c : Component) : Component :=
  { c with id := "" }

namespace Circuit

def Node.anonymous (node : Node) : Node :=
  { node with id := "" }

def Label.anonymous (l : Label) : Label :=
  { l with id := "" }

/-- The circuit without editor ids. -/
def anonymous (c : Circuit) : Circuit :=
  ⟨c.nodes.map Node.anonymous, c.labels.map Label.anonymous⟩

end Circuit

/-- A netlist with its nodes and labels listed under other ids, and with any ids noted in the
components themselves. -/
structure Netlist.Renamed (f g : String → String) (n m : Netlist) : Prop where
  nodes : (m.nodes.map fun e => (e.1, e.2.anonymous)) =
    n.nodes.map fun e => (f e.1, e.2.anonymous)
  labels : m.labels = n.labels.map fun e => (g e.1, { e.2 with node := f e.2.node })

/-- The same fault with another id for a node that is not there. -/
def Fault.renamed (f : String → String) : Fault → Fault
  | unknownNode label node => unknownNode label (f node)
  | fault => fault

def Stop.renamed (f : String → String) (stop : Stop) : Stop :=
  { stop with fault := stop.fault.renamed f }

theorem Fault.ReportedBy.renamed_eq_self {fault : Fault} {pass : Pass}
    (hfault : fault.ReportedBy pass) (hpass : pass ≠ .buildGraph) (f : String → String) :
    fault.renamed f = fault := by
  cases fault with
  | unknownNode => exact absurd (Option.some.inj hfault).symm hpass
  | _ => rfl

variable {f g : String → String} {n m : Netlist}

namespace Circuit

private theorem map_anonymous_mapM_resolveNode (registry : Registry)
    (nodes : List (String × Component)) :
    (nodes.mapM (resolveNode registry)).map (List.map Node.anonymous) =
      (nodes.map fun e => ("", e.2.anonymous)).mapM (resolveNode registry) := by
  rw [← mapM_map_eq]
  refine (mapM_map_congr fun e _ => ?_).symm
  rw [resolveNode, resolveNode, Component.anonymous]
  cases strayPort? e.2.ports <;> simp [Except.map, Node.anonymous]

private theorem mapError_renamed_mapM_resolveNode (registry : Registry) (f : String → String)
    (nodes : List (String × Component)) :
    (nodes.mapM (resolveNode registry)).mapError (Fault.renamed f) =
      nodes.mapM (resolveNode registry) := by
  refine FailsOnly.mapError_eq_self (failsOnly_mapM fun entry _ => ?_)
  rw [resolveNode]
  split
  · exact failsOnly_error rfl
  · exact failsOnly_ok _

/-- The circuit of a netlist without ids, made of nodes and labels without ids. -/
theorem map_anonymous_ofNetlist (registry : Registry) (n : Netlist) :
    (ofNetlist registry n).map anonymous = do
      let nodes ← (n.nodes.mapM (resolveNode registry)).map (List.map Node.anonymous)
      let labels ← (n.labels.mapM (resolveLabel n.nodes)).map (List.map Label.anonymous)
      return ⟨nodes, labels⟩ := by
  rw [ofNetlist, map_bind_eq]
  cases n.nodes.mapM (resolveNode registry) with
  | error fault => rfl
  | ok nodes => cases n.labels.mapM (resolveLabel n.nodes) <;> rfl

end Circuit

namespace Netlist.Renamed

variable (h : n.Renamed f g m)

include h

private theorem mapM_resolveNode_eq (registry : Registry) :
    (m.nodes.mapM (Circuit.resolveNode registry)).map (List.map Circuit.Node.anonymous) =
      ((n.nodes.mapM (Circuit.resolveNode registry)).map
        (List.map Circuit.Node.anonymous)).mapError (Fault.renamed f) := by
  have hnodes : (m.nodes.map fun e => ("", e.2.anonymous)) =
      n.nodes.map fun e => ("", e.2.anonymous) := by
    simpa [Function.comp_def] using congrArg (List.map fun e => ("", e.2)) h.nodes
  rw [Circuit.map_anonymous_mapM_resolveNode, Circuit.map_anonymous_mapM_resolveNode, hnodes,
    Circuit.mapError_renamed_mapM_resolveNode]

/-- A search for the new id of a node ends where the search for the old one did. -/
theorem find?_key_eq (hf : f.Injective) (key : String) :
    ((m.nodes.zipIdx.find? fun e => e.1.1 == f key).map fun e => (e.1.2.anonymous, e.2)) =
      (n.nodes.zipIdx.find? fun e => e.1.1 == key).map fun e => (e.1.2.anonymous, e.2) := by
  have htest : ((fun e : (String × Component) × Nat => e.1.1 == f key) ∘
      Prod.map (fun e : String × Component => (f e.1, e.2.anonymous)) id) =
        fun e => e.1.1 == key :=
    funext fun e => hf.beq_eq
  have hfind := congrArg (fun nodes : List (String × Component) =>
    (nodes.zipIdx.find? fun e => e.1.1 == f key).map fun e => (e.1.2, e.2)) h.nodes
  simp only [List.zipIdx_map, List.find?_map, Option.map_map, htest] at hfind
  exact hfind

private theorem resolveLabel_eq (hf : f.Injective) (entry : String × Netlist.Label) :
    (Circuit.resolveLabel m.nodes (g entry.1, { entry.2 with node := f entry.2.node })).map
        Circuit.Label.anonymous =
      ((Circuit.resolveLabel n.nodes entry).map Circuit.Label.anonymous).mapError
        (Fault.renamed f) := by
  have hfind := h.find?_key_eq hf entry.2.node
  rw [Circuit.resolveLabel, Circuit.resolveLabel]
  dsimp only
  generalize (m.nodes.zipIdx.find? fun e => e.1.1 == f entry.2.node) = found at hfind ⊢
  generalize (n.nodes.zipIdx.find? fun e => e.1.1 == entry.2.node) = found' at hfind ⊢
  cases found with
  | none =>
    obtain rfl := Option.map_eq_none_iff.mp hfind.symm
    rfl
  | some e =>
    obtain ⟨e', rfl, he⟩ := Option.map_eq_some_iff.mp hfind.symm
    obtain ⟨⟨key, c⟩, i⟩ := e
    obtain ⟨⟨key', c'⟩, i'⟩ := e'
    obtain ⟨hc, rfl⟩ := Prod.mk.inj he
    have hports : c'.anonymous.ports = c.anonymous.ports := congrArg Component.ports hc
    have hname : c'.anonymous.name = c.anonymous.name := congrArg Component.name hc
    dsimp only [Component.anonymous] at hports hname
    dsimp only
    rw [hports, hname]
    split <;> rfl

private theorem mapM_resolveLabel_eq (hf : f.Injective) :
    (m.labels.mapM (Circuit.resolveLabel m.nodes)).map (List.map Circuit.Label.anonymous) =
      ((n.labels.mapM (Circuit.resolveLabel n.nodes)).map
        (List.map Circuit.Label.anonymous)).mapError (Fault.renamed f) := by
  rw [← mapM_map_eq, ← mapM_map_eq, ← mapM_mapError_eq, h.labels]
  exact mapM_map_congr fun entry _ => h.resolveLabel_eq hf entry

private theorem ofNetlist_eq (hf : f.Injective) (registry : Registry) :
    (Circuit.ofNetlist registry m).map Circuit.anonymous =
      ((Circuit.ofNetlist registry n).map Circuit.anonymous).mapError (Fault.renamed f) := by
  rw [Circuit.map_anonymous_ofNetlist, Circuit.map_anonymous_ofNetlist, h.mapM_resolveNode_eq,
    h.mapM_resolveLabel_eq hf]
  simp only [mapError_bind]
  rfl

end Netlist.Renamed

theorem Circuit.outline_anonymous (c : Circuit) : c.anonymous.outline = c.outline := by
  rw [outline, outline, anonymous, List.map_map, List.map_map]
  rfl

theorem Circuit.emittedAlike_anonymous (c : Circuit) : c.anonymous.EmittedAlike c := by
  intro wrappers
  rw [anonymous, List.zipIdx_map]
  exact mapM_map_congr fun _ _ => rfl

theorem Circuit.stages_anonymous (registry : Registry) (header : ModuleHeader) (c : Circuit) :
    c.anonymous.stages registry header = c.stages registry header :=
  stages_eq_of_outline_eq c.outline_anonymous c.emittedAlike_anonymous registry header

/-- The stages after the first know no ids, so they can start from a circuit without ids. -/
theorem Netlist.stages_eq_anonymous (registry : Registry) (header : ModuleHeader) (n : Netlist) :
    n.stages registry header =
      (((Circuit.ofNetlist registry n).map Circuit.anonymous).mapError (Stop.mk .buildGraph) >>=
        Circuit.stages registry header) := by
  rw [stages]
  cases Circuit.ofNetlist registry n with
  | error fault => rfl
  | ok c => exact (Circuit.stages_anonymous registry header c).symm

theorem Circuit.stages_pass_ne (registry : Registry) (header : ModuleHeader) (c : Circuit) :
    FailsOnly (fun stop => stop.pass ≠ .buildGraph) (c.stages registry header) := by
  have hstage : ∀ {α : Type} {x : Except Fault α} (pass : Pass), pass ≠ .buildGraph →
      FailsOnly (fun stop => stop.pass ≠ .buildGraph) (x.mapError (Stop.mk pass)) := by
    intro α x pass hpass
    have hx : FailsOnly (fun _ => True) x := fun _ _ => trivial
    exact hx.mapError fun _ _ => hpass
  refine (hstage .aggregate nofun).bind fun cs _ => ?_
  refine (hstage .inferShape nofun).bind fun _ _ => ?_
  refine (hstage .synthesizeConnectors nofun).bind fun wrappers _ => ?_
  exact (hstage .inferImplicit nofun).bind fun additions _ => hstage .emit nofun

theorem Netlist.Renamed.stages_eq (h : n.Renamed f g m) (hf : f.Injective) (registry : Registry)
    (header : ModuleHeader) :
    m.stages registry header = (n.stages registry header).mapError (Stop.renamed f) := by
  rw [m.stages_eq_anonymous, h.ofNetlist_eq hf]
  cases hc : Circuit.ofNetlist registry n with
  | error fault =>
    rw [Netlist.stages, hc]
    rfl
  | ok c =>
    have hstages : n.stages registry header = c.stages registry header := by
      rw [Netlist.stages, hc]
      rfl
    -- The first stage is done, so no fault is left that shows an id.
    have hsame : FailsOnly (fun stop => stop.renamed f = stop) (n.stages registry header) := by
      intro stop hstop
      have hreporter := n.stages_reports registry header stop hstop
      have hpass := c.stages_pass_ne registry header stop (hstages ▸ hstop)
      rw [Stop.renamed, hreporter.renamed_eq_self hpass]
    rw [hsame.mapError_eq_self, hstages]
    exact c.stages_anonymous registry header

namespace Workspace

/-- A full run does not depend on editor ids. It makes the same declarations under other ids, and
stops in the same pass with the same fault, apart from the id of a node that is not there. -/
theorem run_new_renamed (hf : f.Injective) (h : n.Renamed f g m) (registry : Registry)
    (header : ModuleHeader) :
    ((new registry m).run header .emit).result =
        ((new registry n).run header .emit).result.mapError (Stop.renamed f) ∧
      ((new registry m).run header .emit).workspace.declarations =
        ((new registry n).run header .emit).workspace.declarations := by
  obtain ⟨hresult, hdeclarations⟩ := run_new_comesTo registry header n
  obtain ⟨hresult', hdeclarations'⟩ := run_new_comesTo registry header m
  rw [h.stages_eq hf] at hresult' hdeclarations'
  rw [run, run, hresult, hresult', hdeclarations, hdeclarations']
  cases n.stages registry header <;> exact ⟨rfl, rfl⟩

/-- A lamp under some id, and a second label on a node that is not there. -/
def strayBoard (f g : String → String) (id : String) : Netlist where
  nodes := [
    (f "l", {
      id
      name := "lamp"
      type := "Lamp"
      superClasses := []
      ports := [⟨"in", "DigitalSink", false, none⟩]
      arguments := [] })]
  labels := [(g "1", ⟨"on", f "l", 0⟩), (g "2", ⟨"off", f "ghost", 0⟩)]

theorem run_new_renamed_strayBoard :
    Function.Injective ("node-" ++ ·) ∧
      (strayBoard id id "").Renamed ("node-" ++ ·) ("label-" ++ ·)
        (strayBoard ("node-" ++ ·) ("label-" ++ ·) "lamp-1") ∧
      ((new .builtin (strayBoard ("node-" ++ ·) ("label-" ++ ·) "lamp-1")).run {}
          .emit).result.mapError (fun stop => (stop.pass, stop.fault.problem)) =
        .error (.buildGraph, (Fault.unknownNode "off" "node-ghost").problem) := by
  have hf : Function.Injective ("node-" ++ ·) := fun _ _ => (String.append_right_inj "node-").mp
  have h : (strayBoard id id "").Renamed ("node-" ++ ·) ("label-" ++ ·)
      (strayBoard ("node-" ++ ·) ("label-" ++ ·) "lamp-1") := ⟨rfl, rfl⟩
  refine ⟨hf, h, ?_⟩
  rw [(run_new_renamed hf h .builtin {}).1]
  decide +kernel

end Workspace

end Schematic
