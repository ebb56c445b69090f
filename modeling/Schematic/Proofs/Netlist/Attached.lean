import Schematic.Proofs.Connection.Uniform

namespace Schematic

namespace Netlist

/-- A label of the netlist stands on a port of a component. -/
structure Attached (n : Netlist) (l : Label) (c : Component) (p : Port) : Prop where
  listed : l ∈ n.labels.map (·.2)
  node : n.nodes.lookup l.node = some c
  port : c.ports[l.port]? = some p

/-- Where a label stands in the circuit. -/
def refOf (n : Netlist) (l : Label) : PortRef :=
  ⟨n.nodes.findIdx (·.1 == l.node), l.port⟩

/-- What a label leads to in the circuit. -/
def endpointOf (registry : Registry) (l : Label) (c : Component) (p : Port) : Endpoint :=
  ⟨Circuit.nodeOf registry (l.node, c), p⟩

variable {registry : Registry} {n : Netlist}

theorem Attached.endpoint? {l : Label} {c : Component} {p : Port} (hl : n.Attached l c p) :
    (n.circuit registry).endpoint? (n.refOf l) = some (endpointOf registry l c p) := by
  obtain ⟨entry, -, rfl⟩ := List.mem_map.mp hl.listed
  exact endpoint?_labelOf registry hl.node hl.port

theorem endpoints_wired_circuit (registry : Registry) (n : Netlist) (net : String) :
    (n.circuit registry).endpoints ((n.circuit registry).wired net) =
      (n.labels.filter (·.2.name == net)).filterMap fun e =>
        (n.circuit registry).endpoint? (n.refOf e.2) := by
  rw [Circuit.endpoints, Circuit.wired, List.filterMap_map]
  change ((n.labels.map (Circuit.labelOf n.nodes)).filter _).filterMap _ = _
  rw [List.filter_map, List.filterMap_map]
  rfl

/-- Two labels stand on one port exactly when they name the same component and position. -/
theorem refOf_eq_iff {l m : Label} {c d : Component} (hl : n.nodes.lookup l.node = some c)
    (hm : n.nodes.lookup m.node = some d) :
    n.refOf l = n.refOf m ↔ l.node = m.node ∧ l.port = m.port := by
  simp only [refOf, PortRef.mk.injEq]
  refine and_congr_left fun _ => ⟨fun hindex => ?_, fun hnode => by rw [hnode]⟩
  have hentry := Circuit.getElem?_findIdx_key hl
  rw [hindex, Circuit.getElem?_findIdx_key hm] at hentry
  simp_all

theorem Resolvable.attached (hn : n.Resolvable) {l : Label} (hl : l ∈ n.labels.map (·.2)) :
    ∃ c p, n.Attached l c p := by
  obtain ⟨entry, hentry, rfl⟩ := List.mem_map.mp hl
  obtain ⟨c, hnode, hport⟩ := hn.targets entry hentry
  exact ⟨c, c.ports[entry.2.port], hl, hnode, List.getElem?_eq_getElem hport⟩

theorem Attached.mem_nets {l : Label} {c : Component} {p : Port}
    (hl : n.Attached l c p) : l.name ∈ (n.circuit registry).nets := by
  obtain ⟨entry, hentry, rfl⟩ := List.mem_map.mp hl.listed
  exact Circuit.mem_nets.mpr ⟨_, List.mem_map_of_mem hentry, rfl⟩

theorem Attached.component_mem {l : Label} {c : Component} {p : Port}
    (hl : n.Attached l c p) : c ∈ n.nodes.map (·.2) :=
  List.mem_map_of_mem (List.mem_of_getElem? (Circuit.getElem?_findIdx_key hl.node))

/-- A port with a label is one that a label of the netlist is attached to. -/
theorem Resolvable.exists_attached (hn : n.Resolvable) {l : Circuit.Label}
    (hl : l ∈ (n.circuit registry).labels) {e : Endpoint}
    (he : (n.circuit registry).endpoint? l.target = some e) :
    ∃ m c p, n.Attached m c p ∧ m.name = l.name ∧ n.refOf m = l.target ∧
      endpointOf registry m c p = e := by
  obtain ⟨entry, hentry, rfl⟩ := List.mem_map.mp hl
  obtain ⟨c, p, hattached⟩ := hn.attached (List.mem_map_of_mem hentry)
  exact ⟨entry.2, c, p, hattached, rfl, rfl, Option.some.inj (hattached.endpoint?.symm.trans he)⟩

theorem Resolvable.unshared_circuit_iff (hn : n.Resolvable) :
    (n.circuit registry).Unshared ↔ (n.labels.map fun e => (e.2.node, e.2.port)).Nodup := by
  have hsame : ∀ {e f : String × Label}, e ∈ n.labels → f ∈ n.labels →
      (n.refOf e.2 ≠ n.refOf f.2 ↔ (e.2.node, e.2.port) ≠ (f.2.node, f.2.port)) := by
    intro e f he hf
    obtain ⟨c, hnode, -⟩ := hn.targets e he
    obtain ⟨d, hnode', -⟩ := hn.targets f hf
    rw [ne_eq, ne_eq, refOf_eq_iff hnode hnode', Prod.mk.injEq]
  rw [Circuit.Unshared, circuit, List.map_map, List.Nodup, List.Nodup, List.pairwise_map,
    List.pairwise_map]
  exact List.Pairwise.iff_of_mem hsame

/-- The labels of the circuit, with what they lead to, are those that are attached. -/
theorem Resolvable.forall_labels_iff (hn : n.Resolvable)
    (test : String → PortRef → Endpoint → Prop) :
    (∀ l ∈ (n.circuit registry).labels, ∀ e, (n.circuit registry).endpoint? l.target = some e →
        test l.name l.target e) ↔
      ∀ l c p, n.Attached l c p → test l.name (n.refOf l) (endpointOf registry l c p) := by
  constructor
  · intro htest l c p hl
    obtain ⟨entry, hentry, rfl⟩ := List.mem_map.mp hl.listed
    exact htest (Circuit.labelOf n.nodes entry) (List.mem_map_of_mem hentry) _ hl.endpoint?
  · intro htest l hl e he
    obtain ⟨entry, hentry, rfl⟩ := List.mem_map.mp hl
    obtain ⟨c, p, hattached⟩ := hn.attached (List.mem_map_of_mem hentry)
    have he' : some (endpointOf registry entry.2 c p) = some e := hattached.endpoint?.symm.trans he
    cases he'
    exact htest entry.2 c p hattached

theorem Resolvable.mem_endpoints_iff (hn : n.Resolvable) {net : String} {e : Endpoint}
    {test : PortRef → Bool} :
    e ∈ (n.circuit registry).endpoints (((n.circuit registry).wired net).filter test) ↔
      ∃ l c p, n.Attached l c p ∧ l.name = net ∧ test (n.refOf l) = true ∧
        endpointOf registry l c p = e := by
  simp only [Circuit.mem_endpoints, List.mem_filter, Circuit.mem_wired]
  constructor
  · rintro ⟨_, ⟨⟨l, hl, rfl, rfl⟩, htest⟩, he⟩
    obtain ⟨entry, hentry, rfl⟩ := List.mem_map.mp hl
    obtain ⟨c, p, hattached⟩ := hn.attached (List.mem_map_of_mem hentry)
    exact ⟨entry.2, c, p, hattached, rfl, htest,
      Option.some.inj (hattached.endpoint?.symm.trans he)⟩
  · rintro ⟨l, c, p, hattached, rfl, htest, rfl⟩
    obtain ⟨entry, hentry, rfl⟩ := List.mem_map.mp hattached.listed
    exact ⟨_, ⟨⟨Circuit.labelOf n.nodes entry, List.mem_map_of_mem hentry, rfl, rfl⟩, htest⟩,
      hattached.endpoint?⟩

end Netlist

end Schematic
