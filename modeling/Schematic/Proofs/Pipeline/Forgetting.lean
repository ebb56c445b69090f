import Schematic.Declaration.Emit
import Schematic.Proofs.Connection.Inquiry

namespace Schematic

namespace Inquiry

variable {α β γ : Type}

theorem lift_map_bind (x : Except Fault α) (h : α → β) (f : β → Inquiry γ) :
    (liftM (x.map h) : Inquiry β) >>= f = (liftM x : Inquiry α) >>= fun a => f (h a) := by
  cases x <;> rfl

/-- It does not matter to the result what is known, as long as it is right. -/
theorem result_run_forget {circuit : Circuit} {cs : Connections} (hcs : cs.Faithful circuit)
    (p : Inquiry α) : (p.run circuit cs.forget).result = (p.run circuit cs).result := by
  rw [result_run, result_run, Connections.answers_forget, hcs.answers_eq]

end Inquiry

namespace Connections

private theorem get_forget (cs : Connections) (i : Nat) :
    cs.forget.get i = (cs.get i).map Connection.forget := by
  rw [get, get, forget, List.getElem?_map]
  cases cs.list[i]? <;> rfl

private theorem follow_forget (cs : Connections) (found : Option Nat) :
    cs.forget.follow found =
      (cs.follow found).map (Option.map (Prod.map Connection.forget id)) := by
  cases found with
  | none => rfl
  | some i =>
    rw [follow, follow, get_forget]
    cases cs.get i <;> rfl

private theorem owner?_forget (cs : Connections) (r : PortRef) :
    cs.forget.owner? r = (cs.owner? r).map (Option.map (Prod.map Connection.forget id)) :=
  cs.follow_forget _

theorem about_forget {α : Type} (cs : Connections) (name : String) (question : Nat → Inquiry α) :
    cs.forget.about name question = cs.about name question := by
  have hfind : cs.forget.find? name =
      (cs.find? name).map (Option.map (Prod.map Connection.forget id)) := cs.follow_forget _
  rw [about, about, hfind, Inquiry.lift_map_bind]
  refine congrArg (liftM (cs.find? name) >>= ·) (funext fun found => ?_)
  cases found <;> rfl

theorem checking_forget (cs : Connections) : cs.forget.checking = cs.checking := by
  rw [checking, zipIdx_forget]
  exact forM_map_congr fun e _ => rfl

theorem checkShapes_forget {circuit : Circuit} {cs : Connections} (hcs : cs.Faithful circuit) :
    cs.forget.checkShapes circuit = cs.checkShapes circuit := by
  rw [checkShapes, checking_forget, Inquiry.result_run_forget hcs]
  rfl

theorem describing_forget (circuit : Circuit) (cs : Connections) :
    cs.forget.describing circuit = cs.describing circuit := by
  rw [describing, describing, zipIdx_forget]
  exact congrArg (· >>= _) (mapM_map_congr fun e _ => rfl)

end Connections

namespace Wrapper

def Site.forget (s : Site) : Site :=
  { s with connection := s.connection.forget }

private theorem siteAt?_forget (cs : Connections) (node : Circuit.Node) (n : Nat)
    (entry : Port × Nat) :
    siteAt? cs.forget node n entry = (siteAt? cs node n entry).map (Option.map Site.forget) := by
  rw [siteAt?, siteAt?, Connections.owner?_forget, map_bind_eq]
  cases cs.owner? ⟨n, entry.2⟩ with
  | error f => rfl
  | ok found => cases found <;> rfl

private theorem sitesOf_forget (cs : Connections) (entry : Circuit.Node × Nat) :
    sitesOf cs.forget entry = (sitesOf cs entry).map (List.map Site.forget) := by
  have hsites : entry.1.ports.zipIdx.mapM (siteAt? cs.forget entry.1 entry.2) =
      (entry.1.ports.zipIdx.mapM (siteAt? cs entry.1 entry.2)).map
        (List.map (Option.map Site.forget)) := by
    rw [← mapM_map_eq]
    exact congrArg (entry.1.ports.zipIdx.mapM ·) (funext (siteAt?_forget cs entry.1 entry.2))
  rw [sitesOf, sitesOf, hsites]
  cases entry.1.ports.zipIdx.mapM (siteAt? cs entry.1 entry.2) with
  | error f => rfl
  | ok found =>
    change Except.ok _ = Except.ok _
    rw [List.filterMap_map, List.map_filterMap]
    rfl

theorem wrapping_forget (registry : Registry) (circuit : Circuit) (cs : Connections) :
    wrapping registry circuit cs.forget = wrapping registry circuit cs := by
  refine congrArg ((connectors circuit).mapM ·) (funext fun entry => ?_)
  rw [wrappingOne, wrappingOne, sitesOf_forget, Inquiry.lift_map_bind]
  refine congrArg (liftM (sitesOf cs entry) >>= ·) (funext fun sites => ?_)
  exact congrArg (· >>= _) (mapM_map_congr fun s _ => rfl)

theorem wrapAll_forget {circuit : Circuit} {cs : Connections} (hcs : cs.Faithful circuit)
    (registry : Registry) : wrapAll registry circuit cs.forget = wrapAll registry circuit cs := by
  rw [wrapAll, wrapping_forget, Inquiry.result_run_forget hcs]
  rfl

end Wrapper

namespace Support

def Trial.forget (t : Trial) : Trial :=
  { t with connection := t.connection.forget }

private theorem trials_forget (registry : Registry) (cs : Connections) :
    trials registry cs.forget = (trials registry cs).map Trial.forget := by
  rw [trials, trials, Connections.zipIdx_forget, List.flatMap_map, List.map_flatMap]
  refine List.flatMap_congr fun entry _ => ?_
  rw [List.map_map]
  rfl

private theorem nodePower?_forget (cs : Connections) (rule : BusRule) (node : Circuit.Node)
    (n : Nat) :
    nodePower? cs.forget rule node n = nodePower? cs rule node n := by
  refine congrArg (rule.controllerPowerPorts.findSomeM? ·) (funext fun name => ?_)
  cases node.findPort? name with
  | none => rfl
  | some p =>
    dsimp only
    rw [Connections.owner?_forget]
    cases cs.owner? ⟨n, p⟩ with
    | error f => rfl
    | ok found => cases found <;> rfl

private theorem power?_forget (circuit : Circuit) (cs : Connections) (rule : BusRule)
    (c : Connection) :
    power? circuit cs.forget rule c.forget = power? circuit cs rule c := by
  simp only [power?, nodePower?_forget]
  rfl

theorem Trial.trying_forget (circuit : Circuit) (cs : Connections) (a : Additions) (t : Trial) :
    t.forget.trying circuit cs.forget a = t.trying circuit cs a := by
  have hjudging : t.forget.judging circuit cs.forget = t.judging circuit cs := by
    rw [judging, judging, Trial.forget]
    dsimp only
    rw [power?_forget]
    rfl
  rw [trying, trying, hjudging]
  refine congrArg (t.judging circuit cs >>= ·) (funext fun v => ?_)
  cases v with
  | settled | arrayBus | unpowered => rfl
  | add power =>
    rw [applying, applying, Connections.get_forget, Inquiry.lift_map_bind]
    rfl

theorem planning_forget (registry : Registry) (circuit : Circuit) (cs : Connections) :
    planning registry circuit cs.forget = planning registry circuit cs := by
  rw [planning, planning, trials_forget, List.foldlM_map]
  simp only [Trial.trying_forget]

theorem plan_forget {circuit : Circuit} {cs : Connections} (hcs : cs.Faithful circuit)
    (registry : Registry) : plan registry circuit cs.forget = plan registry circuit cs := by
  rw [plan, planning_forget, Inquiry.result_run_forget hcs]
  rfl

end Support

namespace Declarations

open Declaration

private theorem placeBlocks_forget (circuit : Circuit) (cs : Connections) (wrappers : List Wrapper)
    (additions : Support.Additions) :
    placeBlocks circuit cs.forget wrappers additions =
      placeBlocks circuit cs wrappers additions := by
  have hadd : addSupport cs.forget = addSupport cs := by
    funext blocks s
    rw [addSupport, addSupport, Connections.get_forget, map_bind_eq, map_bind_eq]
    rfl
  rw [placeBlocks, placeBlocks, hadd]

theorem emitting_forget (circuit : Circuit) (cs : Connections) (wrappers : List Wrapper)
    (additions : Support.Additions) (header : ModuleHeader) :
    emitting circuit cs.forget wrappers additions header =
      emitting circuit cs wrappers additions header := by
  have hconnects : cs.forget.list.zipIdx.mapM (connecting circuit additions) =
      cs.list.zipIdx.mapM (connecting circuit additions) := by
    rw [Connections.zipIdx_forget]
    exact mapM_map_congr fun entry _ => rfl
  rw [emitting, emitting, placeBlocks_forget, hconnects]

theorem ofCircuit_forget {circuit : Circuit} {cs : Connections} (hcs : cs.Faithful circuit)
    (wrappers : List Wrapper) (additions : Support.Additions) (header : ModuleHeader) :
    ofCircuit circuit cs.forget wrappers additions header =
      ofCircuit circuit cs wrappers additions header := by
  rw [ofCircuit, emitting_forget, Inquiry.result_run_forget hcs]
  rfl

end Declarations

end Schematic
