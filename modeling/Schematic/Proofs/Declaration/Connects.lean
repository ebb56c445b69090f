import Schematic.Declaration.Emit
import Schematic.Proofs.Support.Supplies

namespace Schematic

/-- A port among others can be referred to: it has a proper name, and so has the port that it is a
slot of. -/
@[mk_iff] structure Port.Named (ports : List Port) (p : Port) : Prop where
  port : Text.isIdentifier p.name = true
  parent : ∀ k, p.slotOf = some k → ∀ q, ports[k]? = some q → Text.isIdentifier q.name = true

/-- How a port is referred to on a net that carries arrays or not. -/
def Endpoint.reference (isArray : Bool) (e : Endpoint) : Declaration.Expression :=
  match e.port.slotOf with
  | none => .port e.node.name e.port.name
  | some k =>
    let parent := ((e.node.ports[k]?).map (·.name)).getD ""
    if isArray then .requestVector e.node.name parent e.port.name
    else .request e.node.name parent e.port.name

/-- The names in a reference: the block, the port that a slot belongs to, and the port. -/
def Declaration.Expression.names : Expression → List String
  | port block name => [block, name]
  | request block parent slot | requestVector block parent slot => [block, parent, slot]

def Support.Member.reference (m : Support.Member) : Declaration.Expression :=
  .port m.block m.port

/-- The connect of a net. -/
def Circuit.connectOf (registry : Registry) (c : Circuit) (net : String) : Declaration.Connect where
  label := net
  members := (c.endpoints (c.wired net)).map (·.reference (c.carriesArray net)) ++
    ((c.supplies registry).flatMap fun s => s.membersOn net).map (·.reference)

/-- Every labelled port can be referred to. -/
def Circuit.PortsNamed (c : Circuit) : Prop :=
  ∀ l ∈ c.labels, ∀ e, c.endpoint? l.target = some e → e.port.Named e.node.ports

namespace Declaration

theorem ofMember_eq_ok_iff {c : Circuit} (hc : c.Closed) {isArray : Bool} {m : PortRef}
    {e : Endpoint} (he : c.endpoint? m = some e) {x : Expression} :
    ofMember c isArray m = .ok x ↔ e.port.Named e.node.ports ∧ x = e.reference isArray := by
  obtain ⟨hnode, hport⟩ := Circuit.endpoint?_eq_some_iff.mp he
  have hslots := hc.slots e.node (List.mem_of_getElem? hnode) e.port (List.mem_of_getElem? hport)
  unfold ofMember Endpoint.reference
  rw [Circuit.endpoint_eq_ok_iff.mpr he, ok_bind, Port.named_iff]
  cases hname : Text.isIdentifier e.port.name with
  | false => simp
  | true =>
    cases hslot : e.port.slotOf with
    | none => simp
    | some k =>
      obtain ⟨q, hparent, -⟩ := hslots k hslot
      have hq : c.endpoint ⟨m.node, k⟩ = .ok ⟨e.node, q⟩ :=
        Circuit.endpoint_eq_ok_iff.mpr (Circuit.endpoint?_eq_some_iff.mpr ⟨hnode, hparent⟩)
      cases hproper : Text.isIdentifier q.name with
      | false => simp [hq, hparent, hproper]
      | true => cases isArray <;> simp [hq, hparent, hproper]

theorem mapM_ofMember_eq_ok_iff {c : Circuit} (hc : c.Closed) {isArray : Bool}
    {refs : List PortRef} (hrefs : ∀ r ∈ refs, ∃ e, c.endpoint? r = some e) (xs : List Expression) :
    refs.mapM (ofMember c isArray) = .ok xs ↔
      (∀ e ∈ c.endpoints refs, e.port.Named e.node.ports) ∧
        xs = (c.endpoints refs).map (·.reference isArray) := by
  induction refs generalizing xs with
  | nil => simp [Circuit.endpoints]
  | cons r refs ih =>
    obtain ⟨e, he⟩ := hrefs r List.mem_cons_self
    have hrest := ih fun s hs => hrefs s (List.mem_cons_of_mem r hs)
    have hcons : c.endpoints (r :: refs) = e :: c.endpoints refs := by simp [Circuit.endpoints, he]
    simp only [List.mapM_cons, bind_eq_ok_iff, ofMember_eq_ok_iff hc he, hrest, pure_eq_ok_iff,
      hcons, List.forall_mem_cons, List.map_cons]
    constructor
    · rintro ⟨_, ⟨hnamed, rfl⟩, _, ⟨hall, rfl⟩, rfl⟩
      exact ⟨⟨hnamed, hall⟩, rfl⟩
    · rintro ⟨⟨hnamed, hall⟩, rfl⟩
      exact ⟨_, ⟨hnamed, rfl⟩, _, ⟨hall, rfl⟩, rfl⟩

/-- The connect that a connection comes to. -/
def ofConnection (c : Circuit) (cs : Connections) (a : Support.Additions)
    (entry : Connection × Nat) : Except Fault Connect :=
  (connecting c a entry).result (cs.answers c)

theorem ofConnection_eq_ok_iff {registry : Registry} {c : Circuit} (hclosed : c.Closed)
    (huniform : ∀ net ∈ c.nets, c.Uniform net) {a : Support.Additions} (ha : a.Supplied registry c)
    {net : String} (hnet : net ∈ c.nets) {x : Connect} :
    ofConnection c c.connections a (c.connection net, c.nets.idxOf net) = .ok x ↔
      (∀ e ∈ c.endpoints (c.wired net), e.port.Named e.node.ports) ∧
        x = c.connectOf registry net := by
  have harray := Connections.result_isArray_connections hclosed hnet (huniform net hnet)
  have hmembers : ∀ xs, ofMembers c (c.carriesArray net) (c.connection net) = .ok xs ↔ _ :=
    mapM_ofMember_eq_ok_iff hclosed fun r hr => hclosed.exists_endpoint hr
  rw [ofConnection, connecting, Inquiry.result_bind, harray, ok_bind, Inquiry.result_bind,
    Inquiry.result_lift]
  simp only [bind_eq_ok_iff, hmembers, Inquiry.result_pure, Except.ok.injEq]
  have hadded : a.membersOf (c.connection net).id = _ := ha.members net
  rw [hadded]
  constructor
  · rintro ⟨_, ⟨hnamed, rfl⟩, rfl⟩
    exact ⟨hnamed, rfl⟩
  · rintro ⟨hnamed, rfl⟩
    exact ⟨_, ⟨hnamed, rfl⟩, rfl⟩

/-- All connects can be written exactly when all labelled ports can be referred to. -/
theorem mapM_ofConnection_eq_ok_iff {registry : Registry} {c : Circuit} (hclosed : c.Closed)
    (huniform : ∀ net ∈ c.nets, c.Uniform net) {a : Support.Additions} (ha : a.Supplied registry c)
    {xs : List Connect} :
    c.connections.list.zipIdx.mapM (ofConnection c c.connections a) = .ok xs ↔
      c.PortsNamed ∧ xs = c.nets.map (c.connectOf registry) := by
  have hconnects := mapM_eq_ok_iff fun net (hnet : net ∈ c.nets) x =>
    @ofConnection_eq_ok_iff registry c hclosed huniform a ha net hnet x
  rw [Connections.zipIdx_connections, List.mapM_map, Function.comp_def, hconnects]
  refine and_congr_left fun _ => ?_
  constructor
  · intro hnamed l hl e he
    exact hnamed l.name (Circuit.mem_nets.mpr ⟨l, hl, rfl⟩) e
      (Circuit.mem_endpoints.mpr ⟨_, Circuit.mem_wired.mpr ⟨l, hl, rfl, rfl⟩, he⟩)
  · intro hnamed net _ e he
    obtain ⟨r, hr, he⟩ := Circuit.mem_endpoints.mp he
    obtain ⟨l, hl, -, rfl⟩ := Circuit.mem_wired.mp hr
    exact hnamed l hl e he

end Declaration

theorem Declarations.ofCircuit_eq (c : Circuit) (cs : Connections) (wrappers : List Wrapper)
    (a : Support.Additions) (header : ModuleHeader) :
    ofCircuit c cs wrappers a header = do
      let (connectors, blocks) ← Declaration.placeBlocks c cs wrappers a
      let connects ← cs.list.zipIdx.mapM (Declaration.ofConnection c cs a)
      return { header, connectors, blocks, connects } := by
  rw [ofCircuit, Inquiry.result_run, emitting, Inquiry.result_bind]
  refine congrArg (Declaration.placeBlocks c cs wrappers a >>= ·) (funext fun placed => ?_)
  rw [Inquiry.result_bind, Inquiry.result_mapM]
  rfl

end Schematic
