import Schematic.Proofs.Lowering.Design
import Schematic.Proofs.Netlist.Append

namespace Schematic

namespace Circuit

section

variable {registry : Registry} {a b : Circuit} (hapart : a.nets.Disjoint b.nets)
  (ha : a.Closed) (hb : b.Closed)

include hapart ha hb

private theorem connectOf_append_left {net : String} (hnet : net ∈ a.nets) :
    (a ++ b).connectOf registry net = a.connectOf registry net := by
  refine (within_left a b).connectOf_eq ha (wired_append_left (hapart hnet)) ?_
  rw [supplies_append hapart ha hb, List.flatMap_append,
    @flatMap_membersOn_eq_nil registry b net (hapart hnet), List.append_nil]

private theorem connectOf_append_right {net : String} (hnet : net ∈ b.nets) :
    (a ++ b).connectOf registry net = b.connectOf registry net := by
  have hother : net ∉ a.nets := fun ha => hapart ha hnet
  refine (within_right ha b).connectOf_eq hb (wired_append_right hother) ?_
  rw [supplies_append hapart ha hb, List.flatMap_append,
    @flatMap_membersOn_eq_nil registry a net hother, List.nil_append]

theorem sound_append_iff :
    (a ++ b).Sound registry ↔
      (a.Sound registry ∧ b.Sound registry) ∧
        (a.supportNames registry).Disjoint (b.blockNames registry) ∧
        (b.supportNames registry).Disjoint (a.blockNames registry) := by
  simp only [sound_iff, unshared_append_iff ha, uniform_append_iff hapart ha hb,
    pinsFit_append_iff hapart ha hb, nodes_append, List.forall_mem_append,
    suppliesNamed_append_iff hapart ha hb, portsNamed_append_iff ha hb]
  tauto

theorem design_append (header : ModuleHeader) :
    (a ++ b).design registry header =
      { header
        connectors := (a.design registry header).connectors ++ (b.design registry header).connectors
        blocks := (a.nodes.map (·.block) ++ b.nodes.map (·.block)) ++
          ((a.supplies registry).map (·.block) ++ (b.supplies registry).map (·.block))
        connects := (a.design registry header).connects ++
          (b.design registry header).connects } := by
  have hleft := (within_left a b).connectors_eq ha registry fun _ _ _ _ _ _ hnet =>
    wired_append_left (hapart (mem_nets_of_netOf? hnet))
  have hright := (within_right ha b).connectors_eq hb registry fun _ _ _ _ _ _ hnet =>
    wired_append_right fun ha => hapart ha (mem_nets_of_netOf? hnet)
  have hconnectors : (a.nodes ++ b.nodes).zipIdx.filterMap ((a ++ b).connectorOf? registry) =
      a.nodes.zipIdx.filterMap (a.connectorOf? registry) ++
        b.nodes.zipIdx.filterMap (b.connectorOf? registry) := by
    rw [List.zipIdx_append, List.filterMap_append, Nat.zero_add, hleft, hright]
  have hconnects : (a ++ b).nets.map ((a ++ b).connectOf registry) =
      a.nets.map (a.connectOf registry) ++ b.nets.map (b.connectOf registry) := by
    rw [nets_append hapart, List.map_append,
      List.map_congr_left fun net hnet => connectOf_append_left hapart ha hb hnet,
      List.map_congr_left fun net hnet => connectOf_append_right hapart ha hb hnet]
  simp only [design, nodes_append, hconnectors, hconnects, supplies_append hapart ha hb,
    List.map_append]

end

end Circuit

namespace Netlist

/-- No component and no net belongs to both netlists. -/
structure Disconnected (a b : Netlist) : Prop extends Separate a b where
  names : (a.labels.map (·.2.name)).Disjoint (b.labels.map (·.2.name))

theorem Disconnected.nets_circuit {a b : Netlist} (hapart : a.Disconnected b)
    (registry : Registry) : (a.circuit registry).nets.Disjoint (b.circuit registry).nets := by
  intro net hleft hright
  obtain ⟨_, hl, rfl⟩ := Circuit.mem_nets.mp hleft
  obtain ⟨_, hm, hname⟩ := Circuit.mem_nets.mp hright
  obtain ⟨e, he, rfl⟩ := List.mem_map.mp hl
  obtain ⟨f, hf, rfl⟩ := List.mem_map.mp hm
  exact hapart.names (List.mem_map_of_mem he) (List.mem_map.mpr ⟨f, hf, hname⟩)

/-- Lowering two netlists that have no component and no net in common as one gives what lowering
each gives, put together, if no block that is added to one is named like a block of the other. -/
theorem lower_append_eq_ok_iff {a b : Netlist} (hapart : a.Disconnected b) (registry : Registry)
    (header : ModuleHeader) (d : Declarations) :
    (a ++ b).lower registry header = .ok d ↔
      ∃ da db, a.lower registry header = .ok da ∧ b.lower registry header = .ok db ∧
        ((a.addedBlocks da).map (·.name)).Disjoint (db.blocks.map (·.name)) ∧
        ((b.addedBlocks db).map (·.name)).Disjoint (da.blocks.map (·.name)) ∧
        d = { header
              connectors := da.connectors ++ db.connectors
              blocks := a.nodeBlocks da ++ b.nodeBlocks db ++ a.addedBlocks da ++ b.addedBlocks db
              connects := da.connects ++ db.connects } := by
  have hnets := hapart.nets_circuit registry
  rw [lower_eq_ok_iff, hapart.resolvable_append_iff, hapart.circuit_append]
  constructor
  · rintro ⟨⟨ha, hb⟩, hsound, rfl⟩
    rw [Circuit.sound_append_iff hnets (ha.closed registry) (hb.closed registry)] at hsound
    obtain ⟨⟨hsoundA, hsoundB⟩, hleft, hright⟩ := hsound
    refine ⟨_, _, lower_eq_ok_iff.mpr ⟨ha, hsoundA, rfl⟩, lower_eq_ok_iff.mpr ⟨hb, hsoundB, rfl⟩,
      ?_⟩
    rw [map_name_addedBlocks_design, map_name_addedBlocks_design, Circuit.map_name_blocks_design,
      Circuit.map_name_blocks_design,
      Circuit.design_append hnets (ha.closed registry) (hb.closed registry), nodeBlocks_design,
      nodeBlocks_design, addedBlocks_design, addedBlocks_design, List.append_assoc (_ ++ _)]
    exact ⟨hleft, hright, rfl⟩
  · rintro ⟨da, db, hda, hdb, hleft, hright, rfl⟩
    obtain ⟨ha, hsoundA, rfl⟩ := lower_eq_ok_iff.mp hda
    obtain ⟨hb, hsoundB, rfl⟩ := lower_eq_ok_iff.mp hdb
    rw [map_name_addedBlocks_design, Circuit.map_name_blocks_design] at hleft hright
    refine ⟨⟨ha, hb⟩, ?_, ?_⟩
    · exact (Circuit.sound_append_iff hnets (ha.closed registry) (hb.closed registry)).mpr
        ⟨⟨hsoundA, hsoundB⟩, hleft, hright⟩
    · rw [Circuit.design_append hnets (ha.closed registry) (hb.closed registry), nodeBlocks_design,
        nodeBlocks_design, addedBlocks_design, addedBlocks_design, List.append_assoc (_ ++ _)]

theorem lower_append_busBoard :
    (busBoard "left" "sensors" "v3").Disconnected (busBoard "right" "display" "v5") ∧
      ((busBoard "left" "sensors" "v3") ++ busBoard "right" "display" "v5").lower .builtin {} =
        .ok {
          header := {}
          connectors := []
          blocks := [
            ⟨"left", "Mcu", []⟩,
            ⟨"right", "Mcu", []⟩,
            ⟨"_implicit_i2c_pullup_sensors", "I2cPullup", []⟩,
            ⟨"_implicit_i2c_pullup_display", "I2cPullup", []⟩]
          connects := (busBoardDesign "left" "sensors" "v3").connects ++
            (busBoardDesign "right" "display" "v5").connects } := by
  have hapart : (busBoard "left" "sensors" "v3").Disconnected (busBoard "right" "display" "v5") :=
    ⟨⟨by simp [busBoard], by decide, by decide⟩, by simp [busBoard]⟩
  refine ⟨hapart, (lower_append_eq_ok_iff hapart .builtin {} _).mpr
    ⟨busBoardDesign "left" "sensors" "v3", busBoardDesign "right" "display" "v5", ?_, ?_, ?_, ?_,
      rfl⟩⟩
  · exact eq_ok_of_toOption_eq_some (by decide +kernel)
  · exact eq_ok_of_toOption_eq_some (by decide +kernel)
  · simp [addedBlocks, busBoard, busBoardDesign]
  · simp [addedBlocks, busBoard, busBoardDesign]

end Netlist

end Schematic
