import Schematic.Proofs.Pipeline.Stages

namespace Schematic

namespace Circuit

/-- A node without its id and its arguments. -/
def Node.outline (node : Node) : Node :=
  { node with id := "", arguments := [] }

def Label.outline (l : Label) : Label :=
  { l with id := "" }

/-- The circuit without ids and arguments. -/
def outline (c : Circuit) : Circuit :=
  ⟨c.nodes.map Node.outline, c.labels.map Label.outline⟩

end Circuit

def Endpoint.outline (e : Endpoint) : Endpoint :=
  ⟨e.node.outline, e.port⟩

namespace Circuit

private theorem endpoint?_outline (c : Circuit) (r : PortRef) :
    c.outline.endpoint? r = (c.endpoint? r).map Endpoint.outline := by
  unfold endpoint? outline
  rw [List.getElem?_map]
  cases c.nodes[r.node]? with
  | none => rfl
  | some node =>
    change (node.ports[r.port]?).bind _ = ((node.ports[r.port]?).bind _).map _
    cases node.ports[r.port]? <;> rfl

private theorem endpoint_outline (c : Circuit) (r : PortRef) :
    c.outline.endpoint r = (c.endpoint r).map Endpoint.outline := by
  rw [endpoint, endpoint, endpoint?_outline]
  cases c.endpoint? r <;> rfl

private theorem mapM_endpoint_outline (c : Circuit) (refs : List PortRef) :
    refs.mapM c.outline.endpoint = (refs.mapM c.endpoint).map (List.map Endpoint.outline) := by
  rw [← mapM_map_eq, funext c.endpoint_outline]

end Circuit

theorem Connections.ofCircuit_outline (c : Circuit) : ofCircuit c.outline = ofCircuit c := by
  have hadd : ∀ cs l, addLabel c.outline cs (Circuit.Label.outline l) = addLabel c cs l := by
    intro cs l
    simp only [addLabel, Circuit.endpoint_outline, map_bind_eq]
    rfl
  change (c.labels.map Circuit.Label.outline).foldlM (addLabel c.outline) empty = _
  rw [List.foldlM_map, funext₂ hadd]
  rfl

namespace Connection

private theorem solid_outline (c : Circuit) (k : Connection) :
    k.solid c.outline = (k.solid c).map (List.map Endpoint.outline) := by
  rw [solid, solid, Circuit.mapM_endpoint_outline, map_bind_eq]
  cases k.members.mapM c.endpoint with
  | error f => rfl
  | ok es =>
    rw [ok_bind, ok_bind, List.filter_map]
    rfl

private theorem shapeIn_outline (c : Circuit) (k : Connection) :
    k.shapeIn c.outline = k.shapeIn c := by
  rw [shapeIn, shapeIn, solid_outline, map_bind_eq]
  cases k.solid c with
  | error f => rfl
  | ok es =>
    cases es with
    | nil => rfl
    | cons e rest =>
      have hfind : (rest.map Endpoint.outline).find?
          (fun f => f.port.isArray != e.outline.port.isArray) =
            (rest.find? fun f => f.port.isArray != e.port.isArray).map Endpoint.outline := by
        rw [List.find?_map]
        rfl
      simp only [List.map_cons, ok_bind, hfind]
      cases rest.find? fun f => f.port.isArray != e.port.isArray <;> rfl

private theorem query_outline (c : Circuit) (k : Connection) : k.query c.outline = k.query c := by
  rw [query, query, shapeIn_outline]

end Connection

/-- Whatever asks for shapes is answered alike. -/
theorem Inquiry.run_outline {α : Type} (c : Circuit) (p : Inquiry α) (cs : Connections) :
    p.run c.outline cs = p.run c cs := by
  induction p generalizing cs with
  | done r => rfl
  | tell event next ih => rw [run, run, ih]
  | ask i next ih =>
    have hquery : cs.query c.outline i = cs.query c i := by
      simp only [Connections.query, Connection.query_outline]
    rw [run, run, hquery]
    exact ih _ _

theorem Connections.checkShapes_outline (c : Circuit) (cs : Connections) :
    cs.checkShapes c.outline = cs.checkShapes c := by
  rw [checkShapes, checkShapes, Inquiry.run_outline]

namespace Wrapper

def Site.outline (s : Site) : Site :=
  { s with node := s.node.outline }

private theorem connectors_outline (c : Circuit) :
    connectors c.outline = (connectors c).map fun entry => (entry.1.outline, entry.2) := by
  rw [connectors, connectors, Circuit.outline, List.zipIdx_map, List.filter_map]
  rfl

private theorem siteAt?_outline (cs : Connections) (node : Circuit.Node) (n : Nat)
    (entry : Port × Nat) :
    siteAt? cs node.outline n entry = (siteAt? cs node n entry).map (Option.map Site.outline) := by
  rw [siteAt?, siteAt?]
  cases cs.owner? ⟨n, entry.2⟩ with
  | error f => rfl
  | ok found => cases found <;> rfl

private theorem sitesOf_outline (cs : Connections) (entry : Circuit.Node × Nat) :
    sitesOf cs (entry.1.outline, entry.2) = (sitesOf cs entry).map (List.map Site.outline) := by
  have hsites : entry.1.ports.zipIdx.mapM (siteAt? cs entry.1.outline entry.2) =
      (entry.1.ports.zipIdx.mapM (siteAt? cs entry.1 entry.2)).map
        (List.map (Option.map Site.outline)) := by
    rw [← mapM_map_eq]
    exact congrArg (entry.1.ports.zipIdx.mapM ·) (funext (siteAt?_outline cs entry.1 entry.2))
  change (entry.1.ports.zipIdx.mapM (siteAt? cs entry.1.outline entry.2) >>= _) = _
  rw [hsites, sitesOf]
  cases entry.1.ports.zipIdx.mapM (siteAt? cs entry.1 entry.2) with
  | error f => rfl
  | ok found =>
    change Except.ok _ = Except.ok _
    rw [List.filterMap_map, List.map_filterMap]
    rfl

private theorem adapting_outline (registry : Registry) (c : Circuit) (s : Site) :
    adapting registry c.outline s.outline = adapting registry c s := by
  have hincoming : incoming c.outline s.outline = incoming c s := by
    simp only [incoming, Circuit.mapM_endpoint_outline, map_bind_eq, List.map_map]
    rfl
  rw [adapting, adapting, hincoming]
  rfl

private theorem wrapAll_outline (registry : Registry) (c : Circuit) (cs : Connections) :
    wrapAll registry c.outline cs = wrapAll registry c cs := by
  rw [wrapAll, wrapAll, Inquiry.run_outline, wrapping, wrapping, connectors_outline]
  rw [mapM_map_congr fun entry _ => ?_]
  rw [wrappingOne, wrappingOne, sitesOf_outline, Inquiry.lift_map_bind]
  refine congrArg (liftM (sitesOf cs entry) >>= ·) (funext fun sites => ?_)
  exact congrArg (· >>= _) (mapM_map_congr fun s _ => adapting_outline registry c s)

end Wrapper

namespace Support

private theorem needsSupport_outline (c : Circuit) (rule : BusRule) (k : Connection) :
    needsSupport c.outline rule k = needsSupport c rule k := by
  simp only [needsSupport, carries, isSupported, Circuit.endpoint_outline, map_bind_eq]
  rfl

private theorem power?_outline (c : Circuit) (cs : Connections) (rule : BusRule) (k : Connection) :
    power? c.outline cs rule k = power? c cs rule k := by
  simp only [power?, Circuit.endpoint_outline, map_bind_eq]
  rfl

private theorem plan_outline (registry : Registry) (c : Circuit) (cs : Connections) :
    plan registry c.outline cs = plan registry c cs := by
  have htrying : Trial.trying c.outline cs = Trial.trying c cs := by
    funext a t
    rw [Trial.trying, Trial.trying, Trial.judging, Trial.judging, needsSupport_outline,
      power?_outline]
  rw [plan, plan, Inquiry.run_outline, planning, planning, htrying]

end Support

namespace Declaration

private theorem ofMember_outline (c : Circuit) (isArray : Bool) (m : PortRef) :
    ofMember c.outline isArray m = ofMember c isArray m := by
  simp only [ofMember, Circuit.endpoint_outline, map_bind_eq]
  rfl

private theorem connecting_outline (c : Circuit) (additions : Support.Additions) :
    connecting c.outline additions = connecting c additions := by
  funext entry
  have hmembers : ∀ isArray, ofMembers c.outline isArray entry.1 = ofMembers c isArray entry.1 :=
    fun isArray => congrArg (entry.1.members.mapM ·) (funext (ofMember_outline c isArray))
  simp only [connecting, hmembers]

end Declaration

namespace Circuit

variable {c d : Circuit}

/-- The nodes of two circuits are emitted alike, with whatever wrappers. -/
def EmittedAlike (c d : Circuit) : Prop :=
  ∀ wrappers, c.nodes.zipIdx.mapM (Declaration.ofNode wrappers) =
    d.nodes.zipIdx.mapM (Declaration.ofNode wrappers)

private theorem ofCircuit_eq_of_outline_eq (houtline : c.outline = d.outline)
    (halike : c.EmittedAlike d) (cs : Connections) (wrappers : List Wrapper)
    (additions : Support.Additions)
    (header : ModuleHeader) :
    Declarations.ofCircuit c cs wrappers additions header =
      Declarations.ofCircuit d cs wrappers additions header := by
  have hconnecting :
      Declaration.connecting c additions = Declaration.connecting d additions := by
    rw [← Declaration.connecting_outline, houtline, Declaration.connecting_outline]
  have hemitting : Declarations.emitting c cs wrappers additions header =
      Declarations.emitting d cs wrappers additions header := by
    rw [Declarations.emitting, Declarations.emitting, Declaration.placeBlocks,
      Declaration.placeBlocks, halike wrappers, hconnecting]
  rw [Declarations.ofCircuit, Declarations.ofCircuit, hemitting, ← Inquiry.run_outline c,
    houtline, Inquiry.run_outline]

theorem stages_eq_of_outline_eq (houtline : c.outline = d.outline) (halike : c.EmittedAlike d)
    (registry : Registry) (header : ModuleHeader) :
    c.stages registry header = d.stages registry header := by
  have hconnections : Connections.ofCircuit c = Connections.ofCircuit d := by
    rw [← Connections.ofCircuit_outline, houtline, Connections.ofCircuit_outline]
  have hshapes : ∀ cs, Connections.checkShapes c cs = Connections.checkShapes d cs := by
    intro cs
    rw [← Connections.checkShapes_outline, houtline, Connections.checkShapes_outline]
  have hwrappers : ∀ cs, Wrapper.wrapAll registry c cs = Wrapper.wrapAll registry d cs := by
    intro cs
    rw [← Wrapper.wrapAll_outline, houtline, Wrapper.wrapAll_outline]
  have hplan : ∀ cs, Support.plan registry c cs = Support.plan registry d cs := by
    intro cs
    rw [← Support.plan_outline, houtline, Support.plan_outline]
  simp only [stages, hconnections, hshapes, hwrappers, hplan,
    ofCircuit_eq_of_outline_eq houtline halike]

end Circuit

end Schematic
