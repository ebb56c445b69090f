import Schematic.Proofs.Lowering.Design
import Schematic.Proofs.Netlist.Acceptable
import Schematic.Proofs.Support.Names

namespace Schematic

namespace Netlist

variable {registry : Registry} {n : Netlist}

theorem Resolvable.mem_endpoints_wired_iff (hn : n.Resolvable) {net : String} {e : Endpoint} :
    e ∈ (n.circuit registry).endpoints ((n.circuit registry).wired net) ↔
      ∃ l c p, n.Attached l c p ∧ l.name = net ∧ endpointOf registry l c p = e := by
  simpa using @mem_endpoints_iff registry n hn net e fun _ => true

theorem Resolvable.mem_solid_iff (hn : n.Resolvable) {net : String} {e : Endpoint} :
    e ∈ (n.circuit registry).solid net ↔
      ∃ l c p, n.Attached l c p ∧ l.name = net ∧ p.slotOf = none ∧
        endpointOf registry l c p = e := by
  simp only [Circuit.solid, List.mem_filter, hn.mem_endpoints_wired_iff]
  constructor
  · rintro ⟨⟨l, c, p, hl, hname, rfl⟩, hslot⟩
    exact ⟨l, c, p, hl, hname, by simpa [Port.isSlot, endpointOf] using hslot, rfl⟩
  · rintro ⟨l, c, p, hl, hname, hslot, rfl⟩
    exact ⟨⟨l, c, p, hl, hname, rfl⟩, by simp [Port.isSlot, endpointOf, hslot]⟩

theorem Resolvable.uniform_circuit_iff (hn : n.Resolvable) :
    (∀ net ∈ (n.circuit registry).nets, (n.circuit registry).Uniform net) ↔ n.Uniform := by
  constructor
  · intro huniform l c p hl m d q hm hname hslot hslot'
    have hnet : l.name ∈ (n.circuit registry).nets := by
      obtain ⟨entry, hentry, rfl⟩ := List.mem_map.mp hl.listed
      exact Circuit.mem_nets.mpr ⟨_, List.mem_map_of_mem hentry, rfl⟩
    exact huniform l.name hnet _ (hn.mem_solid_iff.mpr ⟨l, c, p, hl, rfl, hslot, rfl⟩) _
      (hn.mem_solid_iff.mpr ⟨m, d, q, hm, hname.symm, hslot', rfl⟩)
  · intro huniform net _ e he f hf
    obtain ⟨l, c, p, hl, rfl, hslot, rfl⟩ := hn.mem_solid_iff.mp he
    obtain ⟨m, d, q, hm, hname, hslot', rfl⟩ := hn.mem_solid_iff.mp hf
    exact huniform l c p hl m d q hm hname.symm hslot hslot'

theorem Resolvable.carriesArray_circuit_iff (hn : n.Resolvable) {net : String} :
    (n.circuit registry).carriesArray net = false ↔ n.Scalar net := by
  simp only [Circuit.carriesArray, List.any_eq_false, Bool.not_eq_true]
  constructor
  · intro hscalar l c p hl hname hslot
    exact hscalar _ (hn.mem_solid_iff.mpr ⟨l, c, p, hl, hname, hslot, rfl⟩)
  · intro hscalar e he
    obtain ⟨l, c, p, hl, hname, hslot, rfl⟩ := hn.mem_solid_iff.mp he
    exact hscalar l c p hl hname hslot

theorem Resolvable.mem_typesBeside_iff (hn : n.Resolvable) {l : Label} {c : Component} {p : Port}
    (hl : n.Attached l c p) {t : String} :
    t ∈ (n.circuit registry).typesBeside l.name (n.refOf l) ↔
      ∃ m d q, n.Beside l m d q ∧ q.type = t := by
  simp only [Circuit.typesBeside, List.mem_map, hn.mem_endpoints_iff, bne_iff_ne]
  constructor
  · rintro ⟨_, ⟨m, d, q, hm, hname, hother, rfl⟩, rfl⟩
    refine ⟨m, d, q, ⟨hm, hname, ?_⟩, rfl⟩
    rwa [ne_eq, refOf_eq_iff hm.node hl.node, ← Prod.mk.injEq] at hother
  · rintro ⟨m, d, q, ⟨hm, hname, hother⟩, rfl⟩
    refine ⟨_, ⟨m, d, q, hm, hname, ?_, rfl⟩, rfl⟩
    rwa [ne_eq, refOf_eq_iff hm.node hl.node, ← Prod.mk.injEq]

theorem Resolvable.pinFits_circuit_iff (hn : n.Resolvable) {l : Label} {c : Component} {p : Port}
    (hl : n.Attached l c p) :
    (n.circuit registry).PinFits registry l.name (n.refOf l) p ↔ n.PinAccepted registry l p := by
  have htyped : (registry.adapter? ((n.circuit registry).typesBeside l.name (n.refOf l))).isSome ↔
      ∃ rule ∈ registry.adaptRules, (∃ m d q, n.Beside l m d q) ∧
        ∀ m d q, n.Beside l m d q → q.type ∈ rule.accepts := by
    simp only [Registry.adapter?, List.find?_isSome, AdaptRule.covers_iff,
      hn.mem_typesBeside_iff hl]
    refine exists_congr fun rule => and_congr_right fun _ => ?_
    constructor
    · rintro ⟨⟨_, m, d, q, hm, rfl⟩, hall⟩
      exact ⟨⟨m, d, q, hm⟩, fun m d q hm => hall _ ⟨m, d, q, hm, rfl⟩⟩
    · rintro ⟨⟨m, d, q, hm⟩, hall⟩
      refine ⟨⟨_, m, d, q, hm, rfl⟩, ?_⟩
      rintro _ ⟨m, d, q, hm, rfl⟩
      exact hall m d q hm
  constructor
  · rintro ⟨hnamed, hscalar, hrule⟩
    exact ⟨Wrapper.pinNumber?_isSome_iff.mp hnamed, hn.carriesArray_circuit_iff.mp hscalar,
      htyped.mp hrule⟩
  · rintro ⟨hnamed, hscalar, hrule⟩
    exact ⟨Wrapper.pinNumber?_isSome_iff.mpr hnamed, hn.carriesArray_circuit_iff.mpr hscalar,
      htyped.mpr hrule⟩

theorem Resolvable.powered_circuit_iff (hn : n.Resolvable) {rule : BusRule} {net : String} :
    ((n.circuit registry).powerNet? rule net).isSome = true ↔
      ∃ l c p, n.Attached l c p ∧ l.name = net ∧ p.type ∈ rule.controllerTypes ∧
        ∃ name ∈ rule.controllerPowerPorts, ∃ k, c.findPort? name = some k ∧
          ∃ m ∈ n.labels.map (·.2), m.node = l.node ∧ m.port = k := by
  have hlabelled : ∀ {l : Label} {c : Component} {p : Port} {k : Nat}, n.Attached l c p →
      ((∃ m ∈ (n.circuit registry).labels, m.target = ⟨(n.refOf l).node, k⟩) ↔
        ∃ m ∈ n.labels.map (·.2), m.node = l.node ∧ m.port = k) := by
    intro l c p k hl
    simp only [circuit, List.mem_map, exists_exists_and_eq_and]
    refine exists_congr fun entry => and_congr_right fun hentry => ?_
    obtain ⟨d, hnode, -⟩ := hn.targets entry hentry
    exact @refOf_eq_iff n entry.2 { l with port := k } d c hnode hl.node
  rw [Circuit.powerNet?_isSome_iff]
  constructor
  · rintro ⟨r, hr, e, he, htype, name, hname, k, hport, hpower⟩
    obtain ⟨m, hm, hmname, rfl⟩ := Circuit.mem_wired.mp hr
    obtain ⟨entry, hentry, rfl⟩ := List.mem_map.mp hm
    obtain ⟨c, p, hl⟩ := hn.attached (List.mem_map_of_mem hentry)
    have hendpoint : some (endpointOf registry entry.2 c p) = some e := hl.endpoint?.symm.trans he
    cases hendpoint
    exact ⟨entry.2, c, p, hl, hmname, List.contains_iff_mem.mp htype, name, hname, k, hport,
      (hlabelled hl).mp hpower⟩
  · rintro ⟨l, c, p, hl, hname, htype, power, hpower, k, hport, hlabel⟩
    obtain ⟨entry, hentry, rfl⟩ := List.mem_map.mp hl.listed
    exact ⟨n.refOf entry.2, Circuit.mem_wired.mpr ⟨_, List.mem_map_of_mem hentry, hname, rfl⟩, _,
      hl.endpoint?, List.contains_iff_mem.mpr htype, power, hpower, k, hport,
      (hlabelled hl).mpr hlabel⟩

theorem Resolvable.supplyAt?_circuit_iff (hn : n.Resolvable) {rule : BusRule} {net : String} :
    ((n.circuit registry).supplyAt? net rule).isSome = true ↔ n.Supplied registry rule net := by
  rw [Circuit.supplyAt?_isSome_iff, Circuit.needsSupport_iff,
    hn.carriesArray_circuit_iff, hn.powered_circuit_iff]
  simp only [hn.mem_endpoints_wired_iff]
  constructor
  · rintro ⟨⟨⟨_, ⟨l, c, p, hl, hname, rfl⟩, htype⟩, hroles⟩, hscalar, hpowered⟩
    refine ⟨⟨l, c, p, hl, hname, by simpa [BusRule.isController, BusRule.isTarget, endpointOf]
      using htype⟩, ?_, hscalar, hpowered⟩
    exact fun m d q hm hname => hroles _ ⟨m, d, q, hm, hname, rfl⟩
  · rintro ⟨⟨l, c, p, hl, hname, htype⟩, hroles, hscalar, hpowered⟩
    refine ⟨⟨⟨_, ⟨l, c, p, hl, hname, rfl⟩, by simpa [BusRule.isController, BusRule.isTarget,
      endpointOf] using htype⟩, ?_⟩, hscalar, hpowered⟩
    rintro _ ⟨m, d, q, hm, hname, rfl⟩
    exact hroles m d q hm hname

theorem writable_circuit_iff :
    (∀ node ∈ (n.circuit registry).nodes, node.Writable) ↔ ∀ e ∈ n.nodes, e.2.Writable := by
  rw [circuit, List.forall_mem_map]
  refine forall₂_congr fun e _ => ?_
  constructor
  · rintro ⟨hname, htype, hargs⟩
    exact ⟨hname, htype, hargs⟩
  · rintro ⟨hname, htype, hargs⟩
    exact ⟨hname, htype, hargs⟩

theorem Resolvable.suppliesNamed_circuit_iff (hn : n.Resolvable) :
    (n.circuit registry).SuppliesNamed registry ↔
      (∀ rule ∈ registry.buses, ∀ net, n.Supplied registry rule net →
        Text.isIdentifier (rule.supportStem ++ net) = true ∧
          ∀ e ∈ n.nodes, e.2.name ≠ rule.supportStem ++ net) ∧
      ∀ (i j : Nat) rule other net net', registry.buses[i]? = some rule →
        registry.buses[j]? = some other → n.Supplied registry rule net →
        n.Supplied registry other net' →
        rule.supportStem ++ net = other.supportStem ++ net' → i = j ∧ net = net' := by
  have hfree : ∀ name, (∀ node ∈ (n.circuit registry).nodes, node.name ≠ name) ↔
      ∀ e ∈ n.nodes, e.2.name ≠ name := by
    intro name
    rw [circuit, List.forall_mem_map]
    rfl
  simp only [Circuit.suppliesNamed_iff, hn.supplyAt?_circuit_iff, hfree]

/-- The checks of a resolved circuit are the rules of its netlist. -/
theorem Resolvable.sound_circuit_iff (hn : n.Resolvable) :
    (n.circuit registry).Sound registry ↔ n.Acceptable registry := by
  have hpins : (n.circuit registry).PinsFit registry ↔ ∀ l c p, n.Attached l c p →
      registry.roleOf c.type c.superClasses = .connector → n.PinAccepted registry l p :=
    (hn.forall_labels_iff fun net r e => e.node.role = .connector →
      (n.circuit registry).PinFits registry net r e.port).trans
      (forall₄_congr fun l c p hl => imp_congr_right fun _ => hn.pinFits_circuit_iff hl)
  have hports : (n.circuit registry).PortsNamed ↔ ∀ l c p, n.Attached l c p → p.Named c.ports :=
    hn.forall_labels_iff fun _ _ e => e.port.Named e.node.ports
  constructor
  · intro hsound
    obtain ⟨hsupports, hdistinct⟩ := hn.suppliesNamed_circuit_iff.mp hsound.supplies
    exact {
      slots := hn.slots
      targets := hn.targets
      unshared := hn.unshared_circuit_iff.mp hsound.unshared
      uniform := hn.uniform_circuit_iff.mp hsound.uniform
      pins := hpins.mp hsound.pins
      components := writable_circuit_iff.mp hsound.nodes
      ports := hports.mp hsound.ports
      supports := hsupports
      supportsDistinct := hdistinct }
  · intro haccept
    exact {
      unshared := hn.unshared_circuit_iff.mpr haccept.unshared
      uniform := hn.uniform_circuit_iff.mpr haccept.uniform
      pins := hpins.mpr haccept.pins
      nodes := writable_circuit_iff.mpr haccept.components
      supplies := hn.suppliesNamed_circuit_iff.mpr ⟨haccept.supports, haccept.supportsDistinct⟩
      ports := hports.mpr haccept.ports }

/-- Lowering succeeds exactly on the netlists that keep all the rules. The header plays no part in
it. -/
theorem lower_succeeds_iff_acceptable (registry : Registry) (header : ModuleHeader) (n : Netlist) :
    (∃ d, n.lower registry header = .ok d) ↔ n.Acceptable registry := by
  constructor
  · rintro ⟨d, hd⟩
    obtain ⟨hn, hsound, -⟩ := lower_eq_ok_iff.mp hd
    exact hn.sound_circuit_iff.mp hsound
  · intro haccept
    have hn : n.Resolvable := ⟨haccept.slots, haccept.targets⟩
    exact ⟨_, lower_eq_ok_iff.mpr ⟨hn, hn.sound_circuit_iff.mpr haccept, rfl⟩⟩

end Netlist

end Schematic
