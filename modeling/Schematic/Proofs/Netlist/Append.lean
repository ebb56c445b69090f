import Schematic.Proofs.Circuit.Append

namespace Schematic

namespace Circuit

variable {nodes more : List (String × Component)} {key : String}

theorem lookup_eq_none_iff : nodes.lookup key = none ↔ key ∉ nodes.map (·.1) := by
  rw [List.lookup_eq_none_iff, List.mem_map]
  constructor
  · rintro hnone ⟨e, he, rfl⟩
    simpa using hnone e he
  · intro hkey e he
    rw [bne_iff_ne]
    exact fun h => hkey ⟨e, he, h.symm⟩

private theorem lookup_append_left (hkey : key ∈ nodes.map (·.1)) :
    (nodes ++ more).lookup key = nodes.lookup key := by
  rw [List.lookup_append]
  cases hlookup : nodes.lookup key with
  | none => exact absurd hkey (lookup_eq_none_iff.mp hlookup)
  | some c => rfl

private theorem lookup_append_right (hkey : key ∉ nodes.map (·.1)) :
    (nodes ++ more).lookup key = more.lookup key := by
  rw [List.lookup_append, lookup_eq_none_iff.mpr hkey, Option.none_or]

theorem findIdx_key_lt_iff : nodes.findIdx (·.1 == key) < nodes.length ↔ key ∈ nodes.map (·.1) := by
  simp [List.findIdx_lt_length]

private theorem labelOf_append_left {entry : String × Netlist.Label}
    (hkey : entry.2.node ∈ nodes.map (·.1)) :
    labelOf (nodes ++ more) entry = labelOf nodes entry := by
  rw [labelOf, List.findIdx_append, if_pos (findIdx_key_lt_iff.mpr hkey)]
  rfl

private theorem labelOf_append_right {entry : String × Netlist.Label}
    (hkey : entry.2.node ∉ nodes.map (·.1)) :
    labelOf (nodes ++ more) entry = (labelOf more entry).shift nodes.length := by
  rw [labelOf, List.findIdx_append, if_neg (mt findIdx_key_lt_iff.mp hkey), Nat.add_comm]
  rfl

end Circuit

namespace Netlist

/-- The entries of the second netlist come after those of the first. -/
instance : Append Netlist where
  append a b := ⟨a.nodes ++ b.nodes, a.labels ++ b.labels⟩

/-- No key stands for a component of both netlists, and every label names a component of its own
netlist. -/
structure Separate (a b : Netlist) : Prop where
  keys : (a.nodes.map (·.1)).Disjoint (b.nodes.map (·.1))
  left : ∀ e ∈ a.labels, e.2.node ∈ a.nodes.map (·.1)
  right : ∀ e ∈ b.labels, e.2.node ∈ b.nodes.map (·.1)

namespace Separate

variable {a b : Netlist}

theorem resolvable_append_iff (hapart : a.Separate b) :
    (a ++ b).Resolvable ↔ a.Resolvable ∧ b.Resolvable := by
  have hleft : (∀ e ∈ a.labels, ∃ c, (a.nodes ++ b.nodes).lookup e.2.node = some c ∧
      e.2.port < c.ports.length) ↔
        ∀ e ∈ a.labels, ∃ c, a.nodes.lookup e.2.node = some c ∧ e.2.port < c.ports.length := by
    refine forall₂_congr fun e he => ?_
    rw [Circuit.lookup_append_left (hapart.left e he)]
  have hright : (∀ e ∈ b.labels, ∃ c, (a.nodes ++ b.nodes).lookup e.2.node = some c ∧
      e.2.port < c.ports.length) ↔
        ∀ e ∈ b.labels, ∃ c, b.nodes.lookup e.2.node = some c ∧ e.2.port < c.ports.length := by
    refine forall₂_congr fun e he => ?_
    rw [Circuit.lookup_append_right fun hkey => hapart.keys hkey (hapart.right e he)]
  constructor
  · rintro ⟨hslots, htargets⟩
    obtain ⟨hslotsA, hslotsB⟩ := List.forall_mem_append.mp hslots
    obtain ⟨htargetsA, htargetsB⟩ := List.forall_mem_append.mp htargets
    exact ⟨⟨hslotsA, hleft.mp htargetsA⟩, ⟨hslotsB, hright.mp htargetsB⟩⟩
  · rintro ⟨⟨hslotsA, htargetsA⟩, ⟨hslotsB, htargetsB⟩⟩
    exact ⟨List.forall_mem_append.mpr ⟨hslotsA, hslotsB⟩,
      List.forall_mem_append.mpr ⟨hleft.mpr htargetsA, hright.mpr htargetsB⟩⟩

theorem circuit_append (hapart : a.Separate b) (registry : Registry) :
    (a ++ b).circuit registry = a.circuit registry ++ b.circuit registry := by
  have hleft : a.labels.map (Circuit.labelOf (a.nodes ++ b.nodes)) =
      a.labels.map (Circuit.labelOf a.nodes) :=
    List.map_congr_left fun e he => Circuit.labelOf_append_left (hapart.left e he)
  have hright : b.labels.map (Circuit.labelOf (a.nodes ++ b.nodes)) =
      (b.labels.map (Circuit.labelOf b.nodes)).map (Circuit.Label.shift a.nodes.length) := by
    rw [List.map_map]
    exact List.map_congr_left fun e he =>
      Circuit.labelOf_append_right fun hkey => hapart.keys hkey (hapart.right e he)
  have hlength : (a.circuit registry).nodes.length = a.nodes.length := List.length_map _
  change Circuit.mk ((a.nodes ++ b.nodes).map (Circuit.nodeOf registry))
      ((a.labels ++ b.labels).map (Circuit.labelOf (a.nodes ++ b.nodes))) =
    Circuit.mk _ (_ ++ (b.circuit registry).labels.map (Circuit.Label.shift _))
  rw [List.map_append, List.map_append, hleft, hright, hlength]
  rfl

end Separate

end Netlist

end Schematic
