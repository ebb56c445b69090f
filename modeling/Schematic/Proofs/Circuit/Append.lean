import Schematic.Proofs.Circuit.Within

namespace Schematic.Circuit

/-- The nodes of the second circuit come after those of the first. -/
instance : Append Circuit where
  append a b := ⟨a.nodes ++ b.nodes, a.labels ++ b.labels.map (Label.shift a.nodes.length)⟩

variable {registry : Registry} {a b : Circuit}

theorem nodes_append (a b : Circuit) : (a ++ b).nodes = a.nodes ++ b.nodes :=
  rfl

theorem labels_append (a b : Circuit) :
    (a ++ b).labels =
      a.labels.map (Label.shift 0) ++ b.labels.map (Label.shift a.nodes.length) := by
  rw [List.map_id'' Label.shift_zero]
  rfl

private theorem wired_shift (k : Nat) (c : Circuit) (net : String) :
    ((c.labels.map (Label.shift k)).filter (·.name == net)).map (·.target) =
      (c.wired net).map (PortRef.shift k) := by
  rw [wired, List.filter_map, List.map_map, List.map_map]
  rfl

theorem netOf?_append (a b : Circuit) (r : PortRef) :
    (a ++ b).netOf? r = (a.netOf? r).or
      (((b.labels.map (Label.shift a.nodes.length)).find? (·.target == r)).map (·.name)) := by
  change ((a.labels ++ b.labels.map (Label.shift a.nodes.length)).find? (·.target == r)).map
    (·.name) = _
  rw [List.find?_append, netOf?]
  cases a.labels.find? (·.target == r) <;> rfl

theorem within_left (a b : Circuit) : a.Within 0 (a ++ b) := by
  constructor
  · intro i node hnode
    obtain ⟨hlt, -⟩ := List.getElem?_eq_some_iff.mp hnode
    rw [nodes_append, Nat.zero_add, List.getElem?_append_left hlt, hnode]
  · intro r hr
    have hnone : (b.labels.map (Label.shift a.nodes.length)).find? (·.target == r) = none := by
      rw [List.find?_eq_none]
      intro l hl htarget
      obtain ⟨m, -, rfl⟩ := List.mem_map.mp hl
      have hnode : a.nodes.length + m.target.node = r.node :=
        congrArg PortRef.node (eq_of_beq htarget)
      omega
    rw [PortRef.shift_zero, netOf?_append, hnone, Option.map_none, Option.or_none]

theorem within_right (ha : a.Closed) (b : Circuit) : b.Within a.nodes.length (a ++ b) := by
  constructor
  · intro i node hnode
    rw [nodes_append, List.getElem?_append_right (by omega), Nat.add_sub_cancel_left, hnode]
  · intro r _
    have hnone : a.netOf? (r.shift a.nodes.length) = none := by
      rw [netOf?_eq_none_iff]
      intro l hl htarget
      have hlt := ha.node_lt hl
      have hnode : l.target.node = a.nodes.length + r.node := congrArg PortRef.node htarget
      omega
    have hfind :
        (fun l : Label => l.target == r.shift a.nodes.length) ∘ Label.shift a.nodes.length =
        fun l => l.target == r := by
      funext l
      rw [Bool.eq_iff_iff, Function.comp_apply, beq_iff_eq, beq_iff_eq]
      exact PortRef.shift_inj
    rw [netOf?_append, hnone, Option.none_or, List.find?_map, hfind, Option.map_map]
    rfl

theorem wired_append_shift (a b : Circuit) (net : String) :
    (a ++ b).wired net =
      (a.wired net).map (PortRef.shift 0) ++ (b.wired net).map (PortRef.shift a.nodes.length) := by
  rw [wired, labels_append, List.filter_append, List.map_append, wired_shift, wired_shift]

theorem wired_append_left {net : String} (hnet : net ∉ b.nets) :
    (a ++ b).wired net = (a.wired net).map (PortRef.shift 0) := by
  rw [wired_append_shift, wired_eq_nil_iff.mpr hnet, List.map_nil, List.append_nil]

theorem wired_append_right {net : String} (hnet : net ∉ a.nets) :
    (a ++ b).wired net = (b.wired net).map (PortRef.shift a.nodes.length) := by
  rw [wired_append_shift, wired_eq_nil_iff.mpr hnet, List.map_nil, List.nil_append]

theorem endpoints_append (ha : a.Closed) (hb : b.Closed) (net : String) :
    (a ++ b).endpoints ((a ++ b).wired net) =
      a.endpoints (a.wired net) ++ b.endpoints (b.wired net) := by
  rw [← (within_left a b).endpoints_shift ha, ← (within_right ha b).endpoints_shift hb,
    wired_append_shift]
  exact List.filterMap_append

theorem unshared_append_iff (ha : a.Closed) :
    (a ++ b).Unshared ↔ a.Unshared ∧ b.Unshared := by
  have hshift : ∀ (k : Nat) (c : Circuit),
      ((c.labels.map (Label.shift k)).map (·.target)).Nodup ↔ c.Unshared := by
    intro k c
    have hmap : (c.labels.map (Label.shift k)).map (·.target) =
        (c.labels.map (·.target)).map (PortRef.shift k) := by
      rw [List.map_map, List.map_map]
      rfl
    rw [hmap, List.nodup_map_iff fun _ _ => PortRef.shift_inj.mp, Unshared]
  -- The labels of `a` stand on nodes before `a.nodes.length` and those of `b` on later ones.
  have hdisjoint : ((a.labels.map (Label.shift 0)).map (·.target)).Disjoint
      ((b.labels.map (Label.shift a.nodes.length)).map (·.target)) := by
    simp only [List.Disjoint, List.map_map, List.mem_map, Function.comp_apply]
    rintro _ ⟨l, hl, rfl⟩ ⟨m, -, htarget⟩
    have hlt := ha.node_lt hl
    have hnode : a.nodes.length + m.target.node = 0 + l.target.node :=
      congrArg PortRef.node htarget
    omega
  rw [Unshared, labels_append, List.map_append, List.nodup_append', hshift, hshift]
  exact and_congr_right fun _ => and_iff_left hdisjoint

theorem portsNamed_append_iff (ha : a.Closed) (hb : b.Closed) :
    (a ++ b).PortsNamed ↔ a.PortsNamed ∧ b.PortsNamed := by
  let named (_ : String) (_ : PortRef) (e : Endpoint) : Prop := e.port.Named e.node.ports
  have hleft := (within_left a b).forall_labels_iff ha named named fun _ _ _ _ => Iff.rfl
  have hright := (within_right ha b).forall_labels_iff hb named named fun _ _ _ _ => Iff.rfl
  rw [PortsNamed, labels_append, List.forall_mem_append]
  exact and_congr hleft hright

section

variable (hapart : a.nets.Disjoint b.nets)

include hapart

theorem nets_append : (a ++ b).nets = a.nets ++ b.nets := by
  have hnets : (mk (a ++ b).nodes (b.labels.map (Label.shift a.nodes.length))).nets = b.nets := by
    rw [nets, nets, List.map_map]
    rfl
  rw [← hnets]
  refine nets_append_of_new fun m hm hknown => ?_
  refine hapart hknown ?_
  rw [← hnets]
  exact mem_nets.mpr ⟨m, hm, rfl⟩

variable (ha : a.Closed) (hb : b.Closed)

include ha hb

theorem supplies_append :
    (a ++ b).supplies registry = a.supplies registry ++ b.supplies registry := by
  rw [supplies, nets_append hapart, List.flatMap_append]
  congr 1
  · refine List.flatMap_congr fun net hnet => List.filterMap_congr fun rule _ => ?_
    exact (within_left a b).supplyAt?_eq ha (wired_append_left (hapart hnet)) rule
  · refine List.flatMap_congr fun net hnet => List.filterMap_congr fun rule _ => ?_
    exact (within_right ha b).supplyAt?_eq hb (wired_append_right fun ha => hapart ha hnet) rule

theorem uniform_append_iff :
    (∀ net ∈ (a ++ b).nets, (a ++ b).Uniform net) ↔
      (∀ net ∈ a.nets, a.Uniform net) ∧ ∀ net ∈ b.nets, b.Uniform net := by
  rw [nets_append hapart, List.forall_mem_append]
  refine and_congr (forall₂_congr fun net hnet => ?_) (forall₂_congr fun net hnet => ?_)
  · exact (within_left a b).uniform_iff ha (wired_append_left (hapart hnet))
  · exact (within_right ha b).uniform_iff hb (wired_append_right fun ha => hapart ha hnet)

theorem pinsFit_append_iff :
    (a ++ b).PinsFit registry ↔ a.PinsFit registry ∧ b.PinsFit registry := by
  let fits (c : Circuit) (net : String) (r : PortRef) (e : Endpoint) : Prop :=
    e.node.role = .connector → c.PinFits registry net r e.port
  have hleft := (within_left a b).forall_labels_iff ha (fits (a ++ b)) (fits a) <| by
    intro net hnet r e
    refine imp_congr_right fun _ => ?_
    exact (within_left a b).pinFits_shift_iff ha (wired_append_left (hapart hnet)) r e.port
  have hright := (within_right ha b).forall_labels_iff hb (fits (a ++ b)) (fits b) <| by
    intro net hnet r e
    refine imp_congr_right fun _ => (within_right ha b).pinFits_shift_iff hb ?_ r e.port
    exact wired_append_right fun ha => hapart ha hnet
  rw [PinsFit, labels_append, List.forall_mem_append]
  exact and_congr hleft hright

theorem suppliesNamed_append_iff :
    (a ++ b).SuppliesNamed registry ↔
      (a.SuppliesNamed registry ∧ b.SuppliesNamed registry) ∧
        (a.supportNames registry).Disjoint (b.blockNames registry) ∧
        (b.supportNames registry).Disjoint (a.blockNames registry) := by
  have hnames : (a ++ b).supportNames registry =
      a.supportNames registry ++ b.supportNames registry := by
    rw [supportNames, supplies_append hapart ha hb, List.map_append]
    rfl
  have hcomm : (b.supportNames registry).Disjoint (a.supportNames registry) ↔
      (a.supportNames registry).Disjoint (b.supportNames registry) := List.disjoint_comm
  simp only [suppliesNamed_iff_names, hnames, nodes_append, List.map_append, blockNames,
    List.forall_mem_append, List.nodup_append', List.disjoint_append_left,
    List.disjoint_append_right, hcomm]
  tauto

end

end Schematic.Circuit
