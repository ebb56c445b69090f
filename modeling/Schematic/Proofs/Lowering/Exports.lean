import Schematic.Proofs.Lowering.Emitted

namespace Schematic

namespace Circuit

/-- Some label stands on the port. -/
def Labelled (c : Circuit) (r : PortRef) : Prop :=
  ∃ l ∈ c.labels, l.target = r

/-- The references of a design to the labelled ports of a node lead to the exports of its wrapper.
Ports of one node may have the same name, so the references are matched with the exports one by
one and not by name only. -/
structure WrapperResolved (c : Circuit) (d : Declarations) (entry : Node × Nat)
    (wrapper : Declaration.Connector) : Prop where
  exported : ∀ p, c.Labelled ⟨entry.2, p⟩ → ∃ x ∈ wrapper.exports,
    ∀ m, (⟨entry.2, p⟩, m) ∈ c.emitted d ↔ m = .port entry.1.name x.name
  once : (c.referencesTo d entry.2).Perm (wrapper.exports.map fun x => .port entry.1.name x.name)

/-- No labelled port of the node at a position is a slot. -/
def SlotFree (c : Circuit) (entry : Node × Nat) : Prop :=
  ∀ p port, entry.1.ports[p]? = some port → c.Labelled ⟨entry.2, p⟩ → port.slotOf = none

/-- The wrapper class of the node at a position. -/
def connectorAt (registry : Registry) (c : Circuit) (entry : Node × Nat) : Declaration.Connector :=
  ⟨entry.1.wrapperClass, entry.1.type, Argument.written entry.1.arguments,
    (c.pinsOf registry entry).map Declaration.ofPin⟩

theorem connectors_design (registry : Registry) (header : ModuleHeader) (c : Circuit) :
    (c.design registry header).connectors =
      (Wrapper.connectors c).map (c.connectorAt registry) := by
  change c.nodes.zipIdx.filterMap (c.connectorOf? registry) = _
  rw [Wrapper.connectors, ← List.filterMap_eq_map, List.filterMap_filter]
  refine List.filterMap_congr fun entry _ => ?_
  by_cases hrole : entry.1.role = .connector
  · simp [connectorOf?, connectorAt, hrole]
  · simp [connectorOf?, hrole]

theorem mem_pinsOf {registry : Registry} {c : Circuit} {entry : Node × Nat} {pin : Wrapper.Pin} :
    pin ∈ c.pinsOf registry entry ↔ ∃ p port net, entry.1.ports[p]? = some port ∧
      c.netOf? ⟨entry.2, p⟩ = some net ∧ c.pinAt registry net ⟨entry.2, p⟩ port = pin := by
  simp only [pinsOf, List.mem_filterMap, Prod.exists, List.mem_zipIdx_iff_getElem?,
    Option.map_eq_some_iff]
  constructor
  · rintro ⟨port, p, hport, net, hnet, rfl⟩
    exact ⟨p, port, net, hport, hnet, rfl⟩
  · rintro ⟨p, port, net, hport, hnet, rfl⟩
    exact ⟨port, p, hport, net, hnet, rfl⟩

/-- Pins are told apart by their ports. -/
theorem nodup_ports_pinsOf (registry : Registry) (c : Circuit) (entry : Node × Nat) :
    ((c.pinsOf registry entry).map (·.port)).Nodup := by
  have hzip : (entry.1.ports.zipIdx.map (·.2)).Nodup := by
    rw [List.zipIdx_map_snd]
    exact List.nodup_range'
  rw [List.Nodup, List.pairwise_map] at hzip ⊢
  rw [pinsOf, List.pairwise_filterMap]
  refine hzip.imp ?_
  intro a b hne pin hpin other hother
  obtain ⟨_, -, rfl⟩ := Option.map_eq_some_iff.mp hpin
  obtain ⟨_, -, rfl⟩ := Option.map_eq_some_iff.mp hother
  exact hne

/-- The pins of a node as they would be referred to directly, each with its port. -/
def pinReferences (registry : Registry) (c : Circuit) (entry : Node × Nat) :
    List (PortRef × Declaration.Expression) :=
  (c.pinsOf registry entry).map fun pin => (⟨entry.2, pin.port⟩, .port entry.1.name pin.name)

private theorem nodup_pinReferences (registry : Registry) (c : Circuit) (entry : Node × Nat) :
    (c.pinReferences registry entry).Nodup := by
  have hports := nodup_ports_pinsOf registry c entry
  rw [pinReferences, List.Nodup, List.pairwise_map]
  rw [List.Nodup, List.pairwise_map] at hports
  refine hports.imp ?_
  intro pin other hne hsame
  exact hne (congrArg (fun t => t.1.port) hsame)

section

variable {registry : Registry} {header : ModuleHeader} {c : Circuit} (hclosed : c.Closed)
  (hshared : c.Unshared) {entry : Node × Nat} (hentry : c.nodes[entry.2]? = some entry.1)

include hclosed hshared hentry

/-- What a labelled port of a node is referred to as, by its position. -/
theorem mem_emitted_port_iff {p : Nat} (hlabelled : c.Labelled ⟨entry.2, p⟩) :
    ∃ port net, entry.1.ports[p]? = some port ∧ c.netOf? ⟨entry.2, p⟩ = some net ∧
      ∀ m, (⟨entry.2, p⟩, m) ∈ c.emitted (c.design registry header) ↔
        m = (Endpoint.mk entry.1 port).reference (c.carriesArray net) := by
  obtain ⟨l, hl, htarget⟩ := hlabelled
  obtain ⟨⟨node, port⟩, he⟩ := hclosed.targets l hl
  obtain ⟨hnode, hport⟩ := endpoint?_eq_some_iff.mp he
  rw [htarget] at hnode hport
  obtain rfl : entry.1 = node := Option.some.inj (hentry.symm.trans hnode)
  refine ⟨port, l.name, hport, ?_, fun m => ?_⟩
  · rw [← htarget]
    exact hshared.netOf?_target hl
  · rw [← htarget]
    exact mem_emitted_design hclosed hshared hl he

/-- If no labelled port of a node is a slot, the references to it are direct. -/
theorem mem_emitted_iff_mem_pinReferences (hslots : c.SlotFree entry)
    {t : PortRef × Declaration.Expression} :
    t ∈ (c.emitted (c.design registry header)).filter (·.1.node == entry.2) ↔
      t ∈ c.pinReferences registry entry := by
  obtain ⟨⟨i, p⟩, m⟩ := t
  rw [List.mem_filter, pinReferences, List.mem_map, beq_iff_eq]
  constructor
  · rintro ⟨hm, rfl⟩
    have hlabelled : c.Labelled ⟨entry.2, p⟩ := exists_label_of_mem_emitted hclosed hm
    obtain ⟨port, net, hport, hnet, hemit⟩ := mem_emitted_port_iff hclosed hshared hentry hlabelled
    rw [hemit, Endpoint.reference, hslots p port hport hlabelled] at hm
    exact ⟨_, mem_pinsOf.mpr ⟨p, port, net, hport, hnet, rfl⟩, by rw [hm]; rfl⟩
  · rintro ⟨pin, hpin, hsame⟩
    obtain ⟨q, port, net, hport, hnet, rfl⟩ := mem_pinsOf.mp hpin
    cases hsame
    have hlabelled : c.Labelled ⟨entry.2, q⟩ := netOf?_isSome_iff.mp (by rw [hnet]; rfl)
    obtain ⟨other, _, hother, -, hemit⟩ := mem_emitted_port_iff hclosed hshared hentry hlabelled
    obtain rfl : port = other := Option.some.inj (hport.symm.trans hother)
    refine ⟨(hemit _).mpr ?_, rfl⟩
    rw [Endpoint.reference, hslots q port hport hlabelled]
    rfl

/-- The references to a node none of whose labelled ports is a slot are those to its pins. -/
theorem referencesTo_perm (hslots : c.SlotFree entry) :
    (c.referencesTo (c.design registry header) entry.2).Perm
      ((c.pinsOf registry entry).map fun pin => .port entry.1.name pin.name) := by
  -- References and pins are compared with their ports, by which both are told apart.
  have hemitted : ((c.emitted (c.design registry header)).filter (·.1.node == entry.2)).Nodup :=
    (nodup_emitted_design hclosed hshared).of_map.filter _
  have hsame := (List.perm_ext_iff_of_nodup hemitted (nodup_pinReferences registry c entry)).mpr
    fun t => mem_emitted_iff_mem_pinReferences hclosed hshared hentry hslots
  have hpins : (c.pinReferences registry entry).map (·.2) =
      (c.pinsOf registry entry).map fun pin => .port entry.1.name pin.name := by
    rw [pinReferences, List.map_map]
    rfl
  rw [← hpins]
  exact hsame.map (·.2)

/-- The references to a wrapper lead to its exports exactly when no slot is among what they refer
to. -/
theorem wrapperResolved_design_iff :
    c.WrapperResolved (c.design registry header) entry (c.connectorAt registry entry) ↔
      c.SlotFree entry := by
  constructor
  · intro hresolved p port hport hlabelled
    obtain ⟨x, -, hx⟩ := hresolved.exported p hlabelled
    obtain ⟨other, net, hother, -, hemit⟩ := mem_emitted_port_iff hclosed hshared hentry hlabelled
    obtain rfl : port = other := Option.some.inj (hport.symm.trans hother)
    have hdirect := (hx _).mp ((hemit _).mpr rfl)
    rw [Endpoint.reference] at hdirect
    cases hslot : port.slotOf with
    | none => rfl
    | some k => cases harray : c.carriesArray net <;> simp [hslot, harray] at hdirect
  · intro hslots
    constructor
    · intro p hlabelled
      obtain ⟨port, net, hport, hnet, hemit⟩ :=
        mem_emitted_port_iff hclosed hshared hentry hlabelled
      refine ⟨_, List.mem_map_of_mem (mem_pinsOf.mpr ⟨p, port, net, hport, hnet, rfl⟩), fun m => ?_⟩
      rw [hemit, Endpoint.reference, hslots p port hport hlabelled]
      rfl
    · rw [connectorAt, List.map_map]
      exact referencesTo_perm hclosed hshared hentry hslots

/-- A labelled slot of a connector is exported too, but referred to through its parent. -/
theorem mem_emitted_slot_iff (hpins : c.PinsFit registry) (hrole : entry.1.role = .connector)
    {p k : Nat} {port parent : Port} (hport : entry.1.ports[p]? = some port)
    (hlabelled : c.Labelled ⟨entry.2, p⟩) (hslot : port.slotOf = some k)
    (hparent : entry.1.ports[k]? = some parent) {m : Declaration.Expression} :
    (⟨entry.2, p⟩, m) ∈ c.emitted (c.design registry header) ↔
      m = .request entry.1.name parent.name port.name := by
  obtain ⟨l, hl, htarget⟩ := hlabelled
  have he : c.endpoint? l.target = some ⟨entry.1, port⟩ := by
    rw [htarget]
    exact endpoint?_eq_some_iff.mpr ⟨hentry, hport⟩
  have hscalar := (hpins l hl _ he hrole).scalar
  rw [← htarget, mem_emitted_design hclosed hshared hl he, hscalar, Endpoint.reference, hslot]
  simp [hparent]

omit hclosed hentry in
private theorem exists_export_of_labelled {p : Nat} {port : Port}
    (hport : entry.1.ports[p]? = some port) (hlabelled : c.Labelled ⟨entry.2, p⟩) :
    ∃ x ∈ (c.connectorAt registry entry).exports, x.name = port.name := by
  obtain ⟨l, hl, htarget⟩ := hlabelled
  have hnet := hshared.netOf?_target hl
  rw [htarget] at hnet
  exact ⟨_, List.mem_map_of_mem (mem_pinsOf.mpr ⟨p, port, l.name, hport, hnet, rfl⟩), rfl⟩

end

end Circuit

namespace Netlist

/-- The wrapper classes of a design stand in the order of the connectors. The references to a
wrapper lead to its exports, one to each, exactly when no labelled port of the connector is a slot;
a slot is exported like any other port but referred to as an element of its parent. -/
theorem lower_wrapper_resolved_iff {registry : Registry} {header : ModuleHeader} {n : Netlist}
    {d : Declarations} {c : Circuit} (hd : n.lower registry header = .ok d)
    (hc : Circuit.ofNetlist registry n = .ok c) {j : Nat} {entry : Circuit.Node × Nat}
    (hentry : (Wrapper.connectors c)[j]? = some entry) :
    ∃ wrapper, d.connectors[j]? = some wrapper ∧
      (c.WrapperResolved d entry wrapper ↔ c.SlotFree entry) ∧
      ∀ p port k parent, entry.1.ports[p]? = some port → c.Labelled ⟨entry.2, p⟩ →
        port.slotOf = some k → entry.1.ports[k]? = some parent →
        (∃ x ∈ wrapper.exports, x.name = port.name) ∧
          ∀ m, (⟨entry.2, p⟩, m) ∈ c.emitted d ↔
            m = .request entry.1.name parent.name port.name := by
  obtain ⟨hn, hsound, rfl⟩ := lower_eq_ok_iff.mp hd
  obtain ⟨-, rfl⟩ := Circuit.ofNetlist_eq_ok_iff.mp hc
  have hclosed := hn.closed registry
  obtain ⟨hmem, hrole⟩ := List.mem_filter.mp (List.mem_of_getElem? hentry)
  have hnode := List.mem_zipIdx_iff_getElem?.mp hmem
  refine ⟨(n.circuit registry).connectorAt registry entry, ?_, ?_, ?_⟩
  · rw [Circuit.connectors_design, List.getElem?_map, hentry]
    rfl
  · exact Circuit.wrapperResolved_design_iff hclosed hsound.unshared hnode
  · intro p port k parent hport hlabelled hslot hparent
    refine ⟨Circuit.exists_export_of_labelled hsound.unshared hport hlabelled, fun m => ?_⟩
    exact Circuit.mem_emitted_slot_iff hclosed hsound.unshared hnode hsound.pins
      (by simpa using hrole)
      hport hlabelled hslot hparent

/-- A header with one pin wired to a light, where the pin may be a slot. -/
def headerBoard (slotOf : Option Nat) : Netlist where
  nodes := [
    ("h", {
      id := "h"
      name := "J1"
      type := "PinHeader254"
      superClasses := ["PassiveConnector"]
      ports := [⟨"pins", "Passive", true, none⟩, ⟨"port_0", "Passive", false, slotOf⟩]
      arguments := [] }),
    ("d", {
      id := "d"
      name := "D1"
      type := "IndicatorLed"
      superClasses := []
      ports := [⟨"signal", "DigitalSink", false, none⟩]
      arguments := [] })]
  labels := [("1", ⟨"sig", "d", 0⟩), ("2", ⟨"sig", "h", 1⟩)]

/-- The design of the board, given how the pin is referred to. -/
def headerBoardDesign (pin : Declaration.Expression) : Declarations where
  header := {}
  connectors := [⟨"PinHeader254_J1", "PinHeader254", [], [⟨"port_0", 1, "DigitalBidir"⟩]⟩]
  blocks := [⟨"J1", "PinHeader254_J1", []⟩, ⟨"D1", "IndicatorLed", []⟩]
  connects := [⟨"sig", [.port "D1" "signal", pin]⟩]

theorem lower_wrapper_resolved_headerBoard :
    ∃ c entry wrapper,
      (headerBoard none).lower .builtin {} = .ok (headerBoardDesign (.port "J1" "port_0")) ∧
      Circuit.ofNetlist .builtin (headerBoard none) = .ok c ∧
      (Wrapper.connectors c)[0]? = some entry ∧
      (headerBoardDesign (.port "J1" "port_0")).connectors = [wrapper] ∧
      c.WrapperResolved (headerBoardDesign (.port "J1" "port_0")) entry wrapper := by
  have hd : (headerBoard none).lower .builtin {} =
      .ok (headerBoardDesign (.port "J1" "port_0")) :=
    eq_ok_of_toOption_eq_some (by decide +kernel)
  have hc := ofNetlist_of_lower hd
  have hentry : (Wrapper.connectors ((headerBoard none).circuit .builtin))[0]? =
      some (((headerBoard none).circuit .builtin).nodes[0], 0) := rfl
  obtain ⟨wrapper, hwrapper, hiff, -⟩ := lower_wrapper_resolved_iff hd hc hentry
  cases hwrapper
  have hports : ∀ port ∈ (((headerBoard none).circuit .builtin).nodes[0]).ports,
      port.slotOf = none := by
    decide
  refine ⟨_, _, _, hd, hc, hentry, rfl, hiff.mpr fun p port hport _ => ?_⟩
  exact hports port (List.mem_of_getElem? hport)

theorem headerBoard_slot_unresolved :
    ∃ c entry wrapper,
      (headerBoard (some 0)).lower .builtin {} =
        .ok (headerBoardDesign (.request "J1" "pins" "port_0")) ∧
      Circuit.ofNetlist .builtin (headerBoard (some 0)) = .ok c ∧
      (Wrapper.connectors c)[0]? = some entry ∧
      (headerBoardDesign (.request "J1" "pins" "port_0")).connectors = [wrapper] ∧
      ¬ c.WrapperResolved (headerBoardDesign (.request "J1" "pins" "port_0")) entry wrapper := by
  have hd : (headerBoard (some 0)).lower .builtin {} =
      .ok (headerBoardDesign (.request "J1" "pins" "port_0")) :=
    eq_ok_of_toOption_eq_some (by decide +kernel)
  have hc := ofNetlist_of_lower hd
  refine ⟨_, (((headerBoard (some 0)).circuit .builtin).nodes[0], 0), _, hd, hc, rfl, rfl, ?_⟩
  intro hresolved
  obtain ⟨x, -, hx⟩ := hresolved.exported 1 ⟨_, List.mem_cons_of_mem _ List.mem_cons_self, rfl⟩
  have hemitted : ((⟨0, 1⟩ : PortRef), Declaration.Expression.request "J1" "pins" "port_0") ∈
      ((headerBoard (some 0)).circuit .builtin).emitted
        (headerBoardDesign (.request "J1" "pins" "port_0")) := by
    decide +kernel
  cases (hx _).mp hemitted

end Netlist

end Schematic
