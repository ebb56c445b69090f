import Schematic.Declaration.Emit
import Schematic.Proofs.Argument.Written
import Schematic.Proofs.Support.Names
import Schematic.Proofs.Wrapper.Pins

namespace Schematic

/-- The names and the arguments of a component can be written. -/
structure Component.Writable (c : Component) : Prop where
  name : Text.isIdentifier c.name = true
  type : Text.isIdentifier c.type = true
  arguments : ∀ a ∈ c.arguments, a.isExplicit = true → a.Writable

/-- The block of a node. -/
def Circuit.Node.block (node : Circuit.Node) : Declaration.Block :=
  if node.role = .connector then ⟨node.name, node.wrapperClass, []⟩
  else ⟨node.name, node.type, Argument.written node.arguments⟩

/-- The class that wraps the node at a position, if it is a connector. -/
def Circuit.connectorOf? (registry : Registry) (c : Circuit) (entry : Circuit.Node × Nat) :
    Option Declaration.Connector :=
  if entry.1.role = .connector then
    some ⟨entry.1.wrapperClass, entry.1.type, Argument.written entry.1.arguments,
      (c.pinsOf registry entry).map Declaration.ofPin⟩
  else none

theorem Circuit.Node.block_name (node : Circuit.Node) : node.block.name = node.name := by
  unfold block
  split <;> rfl

def Supply.block (s : Supply) : Declaration.Block :=
  ⟨s.blockName, s.rule.supportClass, []⟩

namespace Declaration

private theorem findRev?_wrapperAt (registry : Registry) {c : Circuit} {entry : Circuit.Node × Nat}
    (hentry : entry ∈ c.nodes.zipIdx) :
    ((Wrapper.connectors c).map (c.wrapperAt registry)).findRev? (·.node == entry.2) =
      if entry.1.role = .connector then some (c.wrapperAt registry entry) else none := by
  have hsame : ∀ other ∈ Wrapper.connectors c, other.2 = entry.2 → other = entry := by
    intro other hother hindex
    have hnode := List.mem_zipIdx_iff_getElem?.mp (List.mem_of_mem_filter hother)
    rw [hindex, List.mem_zipIdx_iff_getElem?.mp hentry, Option.some.injEq] at hnode
    exact Prod.ext hnode.symm hindex
  rw [List.findRev?_eq_find?_reverse]
  split
  next hrole =>
    have hmem : entry ∈ Wrapper.connectors c := List.mem_filter.mpr ⟨hentry, by simp [hrole]⟩
    refine find?_eq_some_of_unique (List.mem_reverse.mpr (List.mem_map_of_mem hmem))
      (by simp [Circuit.wrapperAt]) ?_
    intro w hw hindex
    obtain ⟨other, hother, rfl⟩ := List.mem_map.mp (List.mem_reverse.mp hw)
    rw [hsame other hother (by simpa [Circuit.wrapperAt] using hindex)]
  next hrole =>
    rw [List.find?_eq_none]
    intro w hw hindex
    obtain ⟨other, hother, rfl⟩ := List.mem_map.mp (List.mem_reverse.mp hw)
    have heq := hsame other hother (by simpa [Circuit.wrapperAt] using hindex)
    have hother := (List.mem_filter.mp hother).2
    rw [heq] at hother
    exact hrole (by simpa using hother)

theorem checkNode_eq_ok_iff {node : Circuit.Node} {u : Unit} :
    checkNode node = .ok u ↔
      Text.isIdentifier node.name = true ∧ Text.isIdentifier node.type = true := by
  unfold checkNode
  cases Text.isIdentifier node.name <;> cases Text.isIdentifier node.type <;> simp

theorem ofNode_eq_ok_iff {registry : Registry} {c : Circuit} {entry : Circuit.Node × Nat}
    (hentry : entry ∈ c.nodes.zipIdx) {decls : Option Connector × Block} :
    ofNode ((Wrapper.connectors c).map (c.wrapperAt registry)) entry = .ok decls ↔
      entry.1.Writable ∧ decls = (c.connectorOf? registry entry, entry.1.block) := by
  have hparts : ∀ {u : Unit} {ws : List Argument.Written},
      checkNode entry.1 = .ok u ∧ Argument.writeAll entry.1.name entry.1.arguments = .ok ws ↔
        entry.1.Writable ∧ ws = Argument.written entry.1.arguments := by
    intro u ws
    rw [checkNode_eq_ok_iff, Argument.writeAll_eq_ok_iff]
    constructor
    · rintro ⟨⟨hname, htype⟩, hargs, hws⟩
      exact ⟨⟨hname, htype, hargs⟩, hws⟩
    · rintro ⟨⟨hname, htype, hargs⟩, hws⟩
      exact ⟨⟨hname, htype⟩, hargs, hws⟩
  simp only [ofNode, findRev?_wrapperAt registry hentry, bind_eq_ok_iff, Circuit.connectorOf?,
    Circuit.Node.block]
  constructor
  · rintro ⟨_, hcheck, _, hargs, hdecls⟩
    obtain ⟨hwritable, rfl⟩ := hparts.mp ⟨hcheck, hargs⟩
    refine ⟨hwritable, ?_⟩
    by_cases hrole : entry.1.role = .connector
    · simpa [hrole, Circuit.wrapperAt] using hdecls
    · simpa [hrole] using hdecls
  · rintro ⟨hwritable, rfl⟩
    obtain ⟨hcheck, hargs⟩ := hparts.mpr ⟨hwritable, rfl⟩
    refine ⟨(), hcheck, _, hargs, ?_⟩
    by_cases hrole : entry.1.role = .connector
    · simp [hrole, Circuit.wrapperAt]
    · simp [hrole]

/-- One support block is placed after the blocks so far. -/
theorem addSupport_eq_ok_iff {cs : Connections} {blocks placed : List Block} {s : Support} :
    addSupport cs blocks s = .ok placed ↔
      Text.isIdentifier s.name = true ∧ s.name ∉ blocks.map (·.name) ∧
        placed = blocks ++ [⟨s.name, s.className, []⟩] := by
  have hany : blocks.any (·.name == s.name) = true ↔ s.name ∈ blocks.map (·.name) := by
    simp
  unfold addSupport
  cases Text.isIdentifier s.name with
  | false => cases cs.get s.busConnection <;> simp [error_bind]
  | true =>
    by_cases htaken : s.name ∈ blocks.map (·.name)
    · cases cs.get s.busConnection <;> simp [error_bind, hany.mpr htaken, htaken]
    · simp [Bool.eq_false_iff.mpr (hany.not.mpr htaken), htaken]

/-- Support blocks are placed one after the other. The names of the blocks before them need not be
different from each other. -/
theorem foldlM_addSupport_eq_ok_iff {cs : Connections} {supports : List Support}
    {blocks placed : List Block} :
    supports.foldlM (addSupport cs) blocks = .ok placed ↔
      (∀ s ∈ supports, Text.isIdentifier s.name = true ∧ s.name ∉ blocks.map (·.name)) ∧
        (supports.map (·.name)).Nodup ∧
        placed = blocks ++ supports.map fun s => ⟨s.name, s.className, []⟩ := by
  induction supports generalizing blocks with
  | nil => simp
  | cons s supports ih =>
    simp only [List.foldlM_cons, bind_eq_ok_iff, addSupport_eq_ok_iff, List.forall_mem_cons,
      List.map_cons, List.nodup_cons]
    constructor
    -- The names of later supports are checked against this one too, since its block was placed.
    · rintro ⟨_, ⟨hname, hnew, rfl⟩, hrest⟩
      obtain ⟨hnames, hnodup, rfl⟩ := ih.mp hrest
      simp only [List.map_append, List.mem_append, not_or] at hnames
      refine ⟨⟨⟨hname, hnew⟩, fun t ht => ?_⟩, ⟨?_, hnodup⟩, by simp⟩
      · exact ⟨(hnames t ht).1, (hnames t ht).2.1⟩
      intro hmem
      obtain ⟨t, ht, hsame⟩ := List.mem_map.mp hmem
      exact (hnames t ht).2.2 (by simp [hsame])
    · rintro ⟨⟨⟨hname, hnew⟩, hnames⟩, ⟨hfirst, hnodup⟩, rfl⟩
      refine ⟨_, ⟨hname, hnew, rfl⟩, ih.mpr ⟨?_, hnodup, by simp⟩⟩
      intro t ht
      refine ⟨(hnames t ht).1, ?_⟩
      simp only [List.map_append, List.mem_append, not_or]
      refine ⟨(hnames t ht).2, ?_⟩
      intro hmem
      apply hfirst
      have hsame : t.name = s.name := by simpa using hmem
      exact hsame ▸ List.mem_map_of_mem ht

section

variable {registry : Registry} {c : Circuit} {a : Support.Additions} (ha : a.Supplied registry c)

include ha

private theorem foldlM_addSupport_supplied {blocks placed : List Block} :
    a.blocks.foldlM (addSupport c.connections) blocks = .ok placed ↔
      (∀ s ∈ c.supplies registry,
        Text.isIdentifier s.blockName = true ∧ s.blockName ∉ blocks.map (·.name)) ∧
        ((c.supplies registry).map (·.blockName)).Nodup ∧
        placed = blocks ++ (c.supplies registry).map (·.block) := by
  rw [ha.blocks, foldlM_addSupport_eq_ok_iff, List.forall_mem_map, List.map_map, List.map_map]
  rfl

/-- The blocks of a circuit can be placed exactly when its nodes can be written and its supplies are
named, and then they stand in the order of nodes and supplies. -/
theorem placeBlocks_eq_ok_iff {decls : List Connector × List Block} :
    placeBlocks c c.connections ((Wrapper.connectors c).map (c.wrapperAt registry)) a = .ok decls ↔
      (∀ node ∈ c.nodes, node.Writable) ∧ c.SuppliesNamed registry ∧
        decls = (c.nodes.zipIdx.filterMap (c.connectorOf? registry),
          c.nodes.map (·.block) ++ (c.supplies registry).map (·.block)) := by
  have hnodes := mapM_eq_ok_iff fun entry (hentry : entry ∈ c.nodes.zipIdx) decls =>
    @ofNode_eq_ok_iff registry c entry hentry decls
  have hwritable : (∀ entry ∈ c.nodes.zipIdx, entry.1.Writable) ↔
      ∀ node ∈ c.nodes, node.Writable := by
    rw [← List.forall_mem_map (f := Prod.fst) (P := fun node : Circuit.Node => node.Writable)]
    simp
  have hblocks : (c.nodes.zipIdx.map fun entry =>
      (c.connectorOf? registry entry, entry.1.block)).map (·.2) = c.nodes.map (·.block) := by
    rw [List.map_map, ← List.zipIdx_map_fst 0 c.nodes, List.map_map, List.zipIdx_map_fst]
    rfl
  have hconnectors : (c.nodes.zipIdx.map fun entry =>
      (c.connectorOf? registry entry, entry.1.block)).filterMap (·.1) =
        c.nodes.zipIdx.filterMap (c.connectorOf? registry) := by
    rw [List.filterMap_map]
    rfl
  have hfree : ∀ name, name ∉ (c.nodes.map (·.block)).map (·.name) ↔
      ∀ node ∈ c.nodes, node.name ≠ name := by
    simp [Circuit.Node.block_name]
  simp only [placeBlocks, bind_eq_ok_iff, hnodes, hwritable, pure_eq_ok_iff,
    foldlM_addSupport_supplied ha]
  constructor
  · rintro ⟨_, ⟨hall, rfl⟩, _, ⟨hproper, hdistinct, rfl⟩, rfl⟩
    rw [hblocks] at hproper ⊢
    rw [hconnectors]
    exact ⟨hall, ⟨fun s hs => (hproper s hs).1, fun s hs => (hfree _).mp (hproper s hs).2,
      hdistinct⟩, rfl⟩
  · rintro ⟨hall, ⟨hproper, hnew, hdistinct⟩, rfl⟩
    refine ⟨_, ⟨hall, rfl⟩, _, ⟨?_, hdistinct, rfl⟩, ?_⟩
    · rw [hblocks]
      exact fun s hs => ⟨hproper s hs, (hfree _).mpr (hnew s hs)⟩
    · rw [hblocks, hconnectors]

end

end Declaration

end Schematic
