import Schematic.Proofs.Lowering.Reordered

namespace Schematic

/-- The block that a reference is to. -/
def Declaration.Expression.block : Declaration.Expression → String
  | port block _ => block
  | request block _ _ => block
  | requestVector block _ _ => block

theorem Endpoint.block_reference (isArray : Bool) (e : Endpoint) :
    (e.reference isArray).block = e.node.name := by
  unfold reference
  cases e.port.slotOf <;> cases isArray <;> rfl

theorem Supply.block_of_mem_membersOn {s : Supply} {net : String} {m : Support.Member}
    (hm : m ∈ s.membersOn net) : m.block = s.blockName := by
  simp only [membersOn, List.mem_append, List.mem_ite_nil_right, List.mem_singleton] at hm
  rcases hm with ⟨-, rfl⟩ | ⟨-, rfl⟩ <;> rfl

namespace Circuit

private theorem map_block_supplyAt? (c : Circuit) (net : String) (rule : BusRule) :
    (c.supplyAt? net rule).map (·.block) =
      if (c.supplyAt? net rule).isSome then
        some ⟨rule.supportStem ++ net, rule.supportClass, []⟩ else none := by
  cases hs : c.supplyAt? net rule with
  | none => rfl
  | some s =>
    obtain ⟨-, -, -, rfl, rfl⟩ := supplyAt?_eq_some_iff.mp hs
    rfl

namespace Reordered

variable {registry : Registry} {c d : Circuit} (hsame : c.Reordered d)

include hsame

private theorem supplies_perm :
    ((d.supplies registry).map (·.block)).Perm ((c.supplies registry).map (·.block)) := by
  have hon : ∀ net, (registry.buses.filterMap (d.supplyAt? net)).map (·.block) =
      (registry.buses.filterMap (c.supplyAt? net)).map (·.block) := by
    intro net
    rw [List.map_filterMap, List.map_filterMap]
    refine List.filterMap_congr fun rule _ => ?_
    rw [map_block_supplyAt?, map_block_supplyAt?]
    simp only [hsame.supplyAt?_isSome_iff]
  rw [supplies, supplies, List.map_flatMap, List.map_flatMap]
  simp only [hon]
  exact hsame.nets_perm.flatMap_right _

private theorem connectorOf?_eq (hc : c.Unshared) :
    d.connectorOf? registry = c.connectorOf? registry := by
  have hpins : d.pinsOf registry = c.pinsOf registry := by
    funext entry
    refine List.filterMap_congr fun port _ => ?_
    simp only [hsame.netOf?_eq hc]
    refine Option.map_congr fun net _ => ?_
    exact pinAt_congr rfl (hsame.mem_typesBeside_iff net _)
  funext entry
  rw [connectorOf?, connectorOf?, hpins]

end Reordered

end Circuit

namespace Netlist

/-- The references of a connect to ports of the netlist's own components. -/
def ownMembers (n : Netlist) (x : Declaration.Connect) : List Declaration.Expression :=
  x.members.filter fun m => (n.nodes.map (·.2.name)).contains m.block

/-- The references that are no added ones are those to the ports of the net. -/
theorem ownMembers_connectOf {registry : Registry} {n : Netlist}
    (hsupplies : (n.circuit registry).SuppliesNamed registry) (net : String) :
    n.ownMembers ((n.circuit registry).connectOf registry net) =
      ((n.circuit registry).endpoints ((n.circuit registry).wired net)).map
        (·.reference ((n.circuit registry).carriesArray net)) := by
  have hnames : n.nodes.map (·.2.name) = (n.circuit registry).nodes.map (·.name) := by
    rw [circuit, List.map_map]
    rfl
  rw [ownMembers, Circuit.connectOf, List.filter_append, hnames]
  -- All references to ports of the net stay, and no name of a supply is that of a component.
  rw [List.filter_eq_self.mpr, List.filter_eq_nil_iff.mpr, List.append_nil]
  · intro m hm hown
    obtain ⟨member, hmember, rfl⟩ := List.mem_map.mp hm
    obtain ⟨s, hs, hon⟩ := List.mem_flatMap.mp hmember
    obtain ⟨node, hnode, hname⟩ := List.mem_map.mp (List.contains_iff_mem.mp hown)
    exact hsupplies.free s hs node hnode (hname.trans (Supply.block_of_mem_membersOn hon))
  · intro m hm
    obtain ⟨e, he, rfl⟩ := List.mem_map.mp hm
    obtain ⟨r, -, he⟩ := Circuit.mem_endpoints.mp he
    obtain ⟨hnode, -⟩ := Circuit.endpoint?_eq_some_iff.mp he
    rw [Endpoint.block_reference, List.contains_iff_mem]
    exact List.mem_map_of_mem (List.mem_of_getElem? hnode)

/-- The same components, and the same labels in any order. -/
structure Reordered (n m : Netlist) : Prop where
  nodes : m.nodes = n.nodes
  labels : m.labels.Perm n.labels

theorem Reordered.circuit {n m : Netlist} (hsame : n.Reordered m) (registry : Registry) :
    (n.circuit registry).Reordered (m.circuit registry) := by
  rw [Netlist.circuit, Netlist.circuit, hsame.nodes]
  exact ⟨rfl, hsame.labels.map _⟩

theorem Reordered.resolvable {n m : Netlist} (hsame : n.Reordered m) (hn : n.Resolvable) :
    m.Resolvable := by
  refine ⟨hsame.nodes ▸ hn.slots, fun e he => ?_⟩
  rw [hsame.nodes]
  exact hn.targets e (hsame.labels.mem_iff.mp he)

theorem Reordered.exists_lower {n m : Netlist} (hsame : n.Reordered m) {registry : Registry}
    {header : ModuleHeader} (hd : ∃ d, n.lower registry header = .ok d) :
    ∃ d, m.lower registry header = .ok d := by
  obtain ⟨d, hd⟩ := hd
  obtain ⟨hn, hsound, -⟩ := lower_eq_ok_iff.mp hd
  exact ⟨_, lower_eq_ok_iff.mpr
    ⟨hsame.resolvable hn, (hsame.circuit registry).sound hsound, rfl⟩⟩

/-- Neither acceptance nor the connectors and blocks of components depend on the order of the
labels; the added blocks and the references of each connect to ports of components change places
only. -/
theorem lower_reordered {n m : Netlist} (hsame : n.Reordered m) (registry : Registry)
    (header : ModuleHeader) :
    ((∃ d, n.lower registry header = .ok d) ↔ ∃ d, m.lower registry header = .ok d) ∧
    ∀ d e, n.lower registry header = .ok d → m.lower registry header = .ok e →
      e.connectors = d.connectors ∧
      m.nodeBlocks e = n.nodeBlocks d ∧
      (m.addedBlocks e).Perm (n.addedBlocks d) ∧
      (e.connects.map (·.label)).Perm (d.connects.map (·.label)) ∧
      ∀ x ∈ d.connects, ∀ y ∈ e.connects, y.label = x.label →
        (m.ownMembers y).Perm (n.ownMembers x) := by
  have hcircuit := hsame.circuit registry
  have hback : m.Reordered n := ⟨hsame.nodes.symm, hsame.labels.symm⟩
  refine ⟨⟨hsame.exists_lower, hback.exists_lower⟩, ?_⟩
  intro d e hd he
  obtain ⟨-, hsound, rfl⟩ := lower_eq_ok_iff.mp hd
  obtain ⟨-, hsound', rfl⟩ := lower_eq_ok_iff.mp he
  refine ⟨?_, ?_, ?_, ?_, ?_⟩
  · simp only [Circuit.design, hcircuit.connectorOf?_eq hsound.unshared, hcircuit.nodes]
  · rw [nodeBlocks_design, nodeBlocks_design, hcircuit.nodes]
  · rw [addedBlocks_design, addedBlocks_design]
    exact hcircuit.supplies_perm
  · rw [Circuit.map_label_connects_design, Circuit.map_label_connects_design]
    exact hcircuit.nets_perm
  · intro x hx y hy hlabel
    obtain ⟨net, -, rfl⟩ := List.mem_map.mp hx
    obtain ⟨other, -, rfl⟩ := List.mem_map.mp hy
    obtain rfl : other = net := hlabel
    rw [ownMembers_connectOf hsound.supplies, ownMembers_connectOf hsound'.supplies,
      hcircuit.carriesArray_eq]
    exact (hcircuit.endpoints_perm other).map _

theorem lower_reordered_busBoard :
    let n := busBoard "mcu" "sensors" "v3"
    let m : Netlist := ⟨n.nodes, n.labels.reverse⟩
    n.Reordered m ∧ ∃ e, m.lower .builtin {} = .ok e ∧
      m.nodeBlocks e = [⟨"mcu", "Mcu", []⟩] ∧
      (m.addedBlocks e).Perm [⟨"_implicit_i2c_pullup_sensors", "I2cPullup", []⟩] ∧
      (e.connects.map (·.label)).Perm ["sensors", "v3"] := by
  intro n m
  have hsame : n.Reordered m := ⟨rfl, List.reverse_perm _⟩
  have hd : n.lower .builtin {} = .ok (busBoardDesign "mcu" "sensors" "v3") :=
    eq_ok_of_toOption_eq_some (by decide +kernel)
  obtain ⟨haccepted, hdesigns⟩ := lower_reordered hsame .builtin {}
  obtain ⟨e, he⟩ := haccepted.mp ⟨_, hd⟩
  obtain ⟨-, hnodes, hadded, hnets, -⟩ := hdesigns _ e hd he
  exact ⟨hsame, e, he, hnodes, hadded, hnets⟩

end Netlist

end Schematic
