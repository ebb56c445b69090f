import Schematic.Proofs.Circuit.Append
import Schematic.Proofs.Lowering.Design

namespace Schematic

/-- The port as one of a support block. -/
def Endpoint.member (e : Endpoint) : Support.Member :=
  ⟨e.node.name, e.port.name⟩

/-- A single port that has a proper name and no type of a bus. -/
structure Port.Inert (registry : Registry) (p : Port) : Prop where
  named : Text.isIdentifier p.name = true
  scalar : p.isArray = false
  solid : p.slotOf = none
  controller : ∀ rule ∈ registry.buses, rule.isController p.type = false
  target : ∀ rule ∈ registry.buses, rule.isTarget p.type = false

namespace Circuit

/-- The nodes of a circuit stand for the supplies of another one, and the nets that they are on have
no arrays and no connectors there. -/
structure Realizes (registry : Registry) (x c : Circuit) : Prop where
  closed : x.Closed
  unshared : x.Unshared
  writable : ∀ node ∈ x.nodes, node.Writable
  plain : ∀ node ∈ x.nodes, node.role ≠ .connector
  blocks : x.nodes.map (·.block) = (c.supplies registry).map (·.block)
  inert : ∀ l ∈ x.labels, ∀ e, x.endpoint? l.target = some e → e.port.Inert registry
  members : ∀ net, (x.endpoints (x.wired net)).map (·.member) =
    (c.supplies registry).flatMap fun s => s.membersOn net
  supports : ∀ s ∈ c.supplies registry,
    ∃ e ∈ x.endpoints (x.wired s.net), e.node.role = .support s.rule.kind
  scalar : ∀ net ∈ x.nets, c.carriesArray net = false
  unwrapped : ∀ net ∈ x.nets, ∀ e ∈ c.endpoints (c.wired net), e.node.role ≠ .connector

namespace Realizes

variable {registry : Registry} {x c : Circuit}

private theorem inert_of_mem (hreal : x.Realizes registry c) {net : String} {e : Endpoint}
    (he : e ∈ x.endpoints (x.wired net)) : e.port.Inert registry := by
  obtain ⟨r, hr, he⟩ := mem_endpoints.mp he
  obtain ⟨l, hl, -, rfl⟩ := mem_wired.mp hr
  exact hreal.inert l hl e he

theorem mem_nets (hreal : x.Realizes registry c) {l : Label} (hl : l ∈ x.labels) :
    l.name ∈ c.nets := by
  by_contra hnet
  have hmembers := hreal.members l.name
  rw [flatMap_membersOn_eq_nil hnet, List.map_eq_nil_iff] at hmembers
  obtain ⟨e, he⟩ := hreal.closed.targets l hl
  have hmem : e ∈ x.endpoints (x.wired l.name) :=
    mem_endpoints.mpr ⟨l.target, mem_wired.mpr ⟨l, hl, rfl, rfl⟩, he⟩
  rw [hmembers] at hmem
  cases hmem

theorem nets_append (hreal : x.Realizes registry c) : (c ++ x).nets = c.nets := by
  refine nets_append_of_known fun m hm => ?_
  obtain ⟨l, hl, rfl⟩ := List.mem_map.mp hm
  have hname : l.name ∈ c.nets := hreal.mem_nets hl
  exact hname

/-- Nodes of connectors are on no net that gets a port. -/
theorem not_mem_nets_of_connector (hreal : x.Realizes registry c) {net : String} {r : PortRef}
    (hr : r ∈ c.wired net) {e : Endpoint} (he : c.endpoint? r = some e)
    (hrole : e.node.role = .connector) : net ∉ x.nets := by
  intro hnet
  exact hreal.unwrapped net hnet e (mem_endpoints.mpr ⟨r, hr, he⟩) hrole

section

variable (hreal : x.Realizes registry c) (hc : c.Closed)

include hreal hc

theorem carriesArray_append (net : String) : (c ++ x).carriesArray net = c.carriesArray net := by
  have hnone : ((x.endpoints (x.wired net)).filter fun e => !e.port.isSlot).any (·.port.isArray) =
      false := by
    rw [List.any_eq_false]
    intro e he
    rw [(hreal.inert_of_mem (List.mem_of_mem_filter he)).scalar]
    exact Bool.false_ne_true
  rw [carriesArray, solid, endpoints_append hc hreal.closed, List.filter_append, List.any_append,
    hnone, Bool.or_false]
  rfl

theorem powerNet?_append {rule : BusRule} (hrule : rule ∈ registry.buses) (net : String) :
    (c ++ x).powerNet? rule net = c.powerNet? rule net := by
  refine (within_left c x).powerNet?_eq hc (wired_append_shift c x net) fun e he => ?_
  rw [(within_right hc x).endpoints_shift hreal.closed] at he
  exact (hreal.inert_of_mem he).controller rule hrule

/-- A net that would get a supply has it among the nodes already. -/
theorem supplyAt?_append {rule : BusRule} (hrule : rule ∈ registry.buses) (net : String) :
    (c ++ x).supplyAt? net rule = none := by
  by_contra hsome
  rw [← ne_eq, Option.ne_none_iff_isSome, supplyAt?_isSome_iff, needsSupport_iff,
    endpoints_append hc hreal.closed, hreal.carriesArray_append hc,
    hreal.powerNet?_append hc hrule] at hsome
  obtain ⟨⟨⟨e, he, htype⟩, hroles⟩, harray, hpower⟩ := hsome
  rw [List.forall_mem_append] at hroles
  have hcarrier : e ∈ c.endpoints (c.wired net) := by
    rcases List.mem_append.mp he with he | he
    · exact he
    · have hinert := hreal.inert_of_mem he
      rw [hinert.controller rule hrule, hinert.target rule hrule] at htype
      simp at htype
  -- The net would have got a supply in `c` alone, so `x` has a support block on it.
  have hneeds : c.needsSupport rule net = true :=
    needsSupport_iff.mpr ⟨⟨e, hcarrier, htype⟩, hroles.1⟩
  have hsupply := supplyAt?_isSome_iff.mpr ⟨hneeds, harray, hpower⟩
  obtain ⟨s, hs⟩ := Option.isSome_iff_exists.mp hsupply
  obtain ⟨-, -, -, rfl, rfl⟩ := supplyAt?_eq_some_iff.mp hs
  obtain ⟨f, hf, hrole⟩ := hreal.supports s
    (mem_supplies.mpr ⟨mem_nets_of_supplyAt? hsupply, hrule, hs⟩)
  exact hroles.2 f hf hrole

theorem supplies_append : (c ++ x).supplies registry = [] := by
  simp only [supplies, List.flatMap_eq_nil_iff, List.filterMap_eq_nil_iff]
  exact fun net _ rule hrule => hreal.supplyAt?_append hc hrule net

theorem uniform_append {net : String} (hnet : c.Uniform net) : (c ++ x).Uniform net := by
  by_cases htouched : net ∈ x.nets
  · have hscalar : (c ++ x).carriesArray net = false := by
      rw [hreal.carriesArray_append hc, hreal.scalar net htouched]
    rw [carriesArray, List.any_eq_false] at hscalar
    intro e he f hf
    rw [Bool.eq_false_iff.mpr (hscalar e he), Bool.eq_false_iff.mpr (hscalar f hf)]
  · exact ((within_left c x).uniform_iff hc (wired_append_left htouched)).mpr hnet

theorem pinsFit_append (hpins : c.PinsFit registry) : (c ++ x).PinsFit registry := by
  rw [PinsFit, labels_append, List.forall_mem_append, List.forall_mem_map, List.forall_mem_map]
  constructor
  · intro l hl e he hrole
    have hwired : l.target ∈ c.wired l.name := mem_wired.mpr ⟨l, hl, rfl, rfl⟩
    have he' := ((within_left c x).endpoint?_eq (hc.targets l hl)).symm.trans he
    have huntouched := hreal.not_mem_nets_of_connector hwired he' hrole
    have hin := within_left c x
    exact (hin.pinFits_shift_iff hc (wired_append_left huntouched) l.target e.port).mpr
      (hpins l hl e he' hrole)
  · intro l hl e he hrole
    have he' := ((within_right hc x).endpoint?_eq (hreal.closed.targets l hl)).symm.trans he
    obtain ⟨hnode, -⟩ := endpoint?_eq_some_iff.mp he'
    exact absurd hrole (hreal.plain e.node (List.mem_of_getElem? hnode))

theorem sound_append (hsound : c.Sound registry) : (c ++ x).Sound registry where
  unshared := (unshared_append_iff hc).mpr ⟨hsound.unshared, hreal.unshared⟩
  uniform net hnet := by
    rw [hreal.nets_append] at hnet
    exact hreal.uniform_append hc (hsound.uniform net hnet)
  pins := hreal.pinsFit_append hc hsound.pins
  nodes := List.forall_mem_append.mpr ⟨hsound.nodes, hreal.writable⟩
  supplies := by constructor <;> simp [hreal.supplies_append hc]
  ports := by
    refine (portsNamed_append_iff hc hreal.closed).mpr ⟨hsound.ports, fun l hl e he => ?_⟩
    have hinert := hreal.inert l hl e he
    exact ⟨hinert.named, fun k hslot => by simp [hinert.solid] at hslot⟩

theorem connectors_append :
    (c ++ x).nodes.zipIdx.filterMap ((c ++ x).connectorOf? registry) =
      c.nodes.zipIdx.filterMap (c.connectorOf? registry) := by
  have hnets : ∀ i node p net, c.nodes[i]? = some node → node.role = .connector →
      c.netOf? ⟨i, p⟩ = some net → (c ++ x).wired net = (c.wired net).map (PortRef.shift 0) := by
    intro i node p net hnode hrole hnet
    have hwired := mem_wired_of_netOf? hnet
    obtain ⟨e, he⟩ := hc.exists_endpoint hwired
    obtain ⟨hsame, -⟩ := endpoint?_eq_some_iff.mp he
    rw [hnode, Option.some.injEq] at hsame
    exact wired_append_left (hreal.not_mem_nets_of_connector hwired he (hsame ▸ hrole))
  have hleft := (within_left c x).connectors_eq hc registry hnets
  have hright : (x.nodes.zipIdx c.nodes.length).filterMap ((c ++ x).connectorOf? registry) =
      [] := by
    rw [List.filterMap_eq_nil_iff]
    intro entry hentry
    have hnode : entry.1 ∈ x.nodes := List.fst_mem_of_mem_zipIdx hentry
    rw [connectorOf?, if_neg (hreal.plain entry.1 hnode)]
  rw [nodes_append, List.zipIdx_append, List.filterMap_append, hleft, Nat.zero_add, hright,
    List.append_nil]

theorem connectOf_append (net : String) :
    (c ++ x).connectOf registry net = c.connectOf registry net := by
  have hports : (x.endpoints (x.wired net)).map (·.reference (c.carriesArray net)) =
      ((c.supplies registry).flatMap fun s => s.membersOn net).map (·.reference) := by
    rw [← hreal.members, List.map_map]
    refine List.map_congr_left fun e he => ?_
    rw [Endpoint.reference, (hreal.inert_of_mem he).solid]
    rfl
  rw [connectOf, connectOf, hreal.carriesArray_append hc, endpoints_append hc hreal.closed,
    hreal.supplies_append hc, List.map_append, hports, List.flatMap_nil, List.map_nil,
    List.append_nil]

theorem design_append (header : ModuleHeader) :
    (c ++ x).design registry header = c.design registry header := by
  have hblocks : (c ++ x).nodes.map (·.block) ++ ((c ++ x).supplies registry).map (·.block) =
      c.nodes.map (·.block) ++ (c.supplies registry).map (·.block) := by
    rw [hreal.supplies_append hc, List.map_nil, List.append_nil, nodes_append, List.map_append,
      hreal.blocks]
  have hconnects : (c ++ x).nets.map ((c ++ x).connectOf registry) =
      c.nets.map (c.connectOf registry) := by
    rw [hreal.nets_append]
    exact List.map_congr_left fun net _ => hreal.connectOf_append hc net
  rw [design, design, hreal.connectors_append hc, hblocks, hconnects]

end

end Realizes

end Circuit

end Schematic
