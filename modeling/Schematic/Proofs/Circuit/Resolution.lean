import Schematic.Circuit.Build
import Schematic.Proofs.Sequence

namespace Schematic

/-- Every slot belongs to a port of the component that is itself no slot. -/
def Component.SlotsSound (c : Component) : Prop :=
  ∀ p ∈ c.ports, ∀ k, p.slotOf = some k → ∃ q, c.ports[k]? = some q ∧ q.slotOf = none

theorem Circuit.isSlotParent_iff {ports : List Port} {k : Nat} :
    isSlotParent ports k = true ↔ ∃ q, ports[k]? = some q ∧ q.slotOf = none := by
  cases hq : ports[k]? <;> simp [isSlotParent, hq, Port.isSlot]

theorem Circuit.strayPort?_eq_none_iff {c : Component} :
    strayPort? c.ports = none ↔ c.SlotsSound := by
  simp only [strayPort?, List.findSome?_eq_none_iff, Component.SlotsSound]
  refine forall₂_congr fun p _ => ?_
  cases hslot : p.slotOf with
  | none => simp
  | some k => simp [← isSlotParent_iff]

namespace Circuit

/-- The node of a component that is listed under a key. -/
def nodeOf (registry : Registry) (entry : String × Component) : Node :=
  { entry.2 with
    id := if entry.2.id.isEmpty then entry.1 else entry.2.id
    role := registry.roleOf entry.2.type entry.2.superClasses }

/-- The label of an entry, on the first component with the key that it names. -/
def labelOf (nodes : List (String × Component)) (entry : String × Netlist.Label) : Label :=
  { id := entry.1
    name := entry.2.name
    target := ⟨nodes.findIdx (·.1 == entry.2.node), entry.2.port⟩ }

theorem resolveNode_eq_ok_iff {registry : Registry} {entry : String × Component} {node : Node} :
    resolveNode registry entry = .ok node ↔
      entry.2.SlotsSound ∧ node = nodeOf registry entry := by
  rw [← strayPort?_eq_none_iff, resolveNode]
  cases hstray : strayPort? entry.2.ports with
  | some stray => simp
  | none =>
    simp only [Except.ok.injEq, true_and]
    exact eq_comm

/-- Searching the listed components for a key finds the one that a look-up gives, at the first
position with that key. -/
theorem find?_key_eq (nodes : List (String × Component)) (key : String) (start : Nat) :
    (nodes.zipIdx start).find? (fun e => e.1.1 == key) =
      (nodes.lookup key).map fun c => ((key, c), start + nodes.findIdx (·.1 == key)) := by
  induction nodes generalizing start with
  | nil => simp
  | cons entry nodes ih =>
    obtain ⟨k, c⟩ := entry
    by_cases hkey : k = key
    · simp [hkey, List.findIdx_cons]
    · have hne : (k == key) = false := by simp [hkey]
      have hne' : (key == k) = false := by simp [Ne.symm hkey]
      rw [List.zipIdx_cons, List.find?_cons_of_neg (by simp [hkey]), ih, List.lookup_cons, hne',
        List.findIdx_cons, hne]
      simp only [cond_false]
      congr 1
      funext c
      rw [Nat.add_assoc, Nat.add_comm 1]

theorem getElem?_findIdx_key {nodes : List (String × Component)} {key : String} {c : Component}
    (hlookup : nodes.lookup key = some c) :
    nodes[nodes.findIdx (·.1 == key)]? = some (key, c) := by
  have hfind := find?_key_eq nodes key 0
  rw [hlookup, Option.map_some, Nat.zero_add] at hfind
  have hmem := List.mem_of_find?_eq_some hfind
  exact List.mem_zipIdx_iff_getElem?.mp hmem

theorem resolveLabel_eq_ok_iff {nodes : List (String × Component)}
    {entry : String × Netlist.Label} {label : Label} :
    resolveLabel nodes entry = .ok label ↔
      (∃ c, nodes.lookup entry.2.node = some c ∧ entry.2.port < c.ports.length) ∧
        label = labelOf nodes entry := by
  rw [resolveLabel, find?_key_eq]
  cases hlookup : nodes.lookup entry.2.node with
  | none => simp
  | some c =>
    by_cases hport : entry.2.port < c.ports.length
    · simp only [Option.map_some, hport, if_true, Except.ok.injEq, Nat.zero_add, Option.some.injEq,
        exists_eq_left', true_and]
      exact eq_comm
    · simp [hport]

end Circuit

namespace Netlist

/-- What is checked of a netlist before anything else. -/
structure Resolvable (n : Netlist) : Prop where
  slots : ∀ e ∈ n.nodes, e.2.SlotsSound
  targets : ∀ e ∈ n.labels, ∃ c, n.nodes.lookup e.2.node = some c ∧ e.2.port < c.ports.length

/-- The circuit of a netlist, whether or not it is resolvable. -/
def circuit (registry : Registry) (n : Netlist) : Circuit where
  nodes := n.nodes.map (Circuit.nodeOf registry)
  labels := n.labels.map (Circuit.labelOf n.nodes)

end Netlist

theorem Circuit.ofNetlist_eq_ok_iff {registry : Registry} {n : Netlist} {c : Circuit} :
    ofNetlist registry n = .ok c ↔ n.Resolvable ∧ c = n.circuit registry := by
  have hnodes := mapM_eq_ok_iff fun e (_ : e ∈ n.nodes) node =>
    @resolveNode_eq_ok_iff registry e node
  have hlabels := mapM_eq_ok_iff fun e (_ : e ∈ n.labels) label =>
    @resolveLabel_eq_ok_iff n.nodes e label
  simp only [ofNetlist, bind_eq_ok_iff, hnodes, hlabels, pure_eq_ok_iff]
  constructor
  · rintro ⟨_, ⟨hslots, rfl⟩, _, ⟨htargets, rfl⟩, rfl⟩
    exact ⟨⟨hslots, htargets⟩, rfl⟩
  · rintro ⟨⟨hslots, htargets⟩, rfl⟩
    exact ⟨_, ⟨hslots, rfl⟩, _, ⟨htargets, rfl⟩, rfl⟩

/-- All references of a circuit lead somewhere: labels to ports, and slots to ports of the same
node that are no slots. -/
structure Circuit.Closed (c : Circuit) : Prop where
  targets : ∀ l ∈ c.labels, ∃ e, c.endpoint? l.target = some e
  slots : ∀ node ∈ c.nodes, node.SlotsSound

theorem Circuit.endpoint?_eq_some_iff {c : Circuit} {r : PortRef} {e : Endpoint} :
    c.endpoint? r = some e ↔
      c.nodes[r.node]? = some e.node ∧ e.node.ports[r.port]? = some e.port := by
  obtain ⟨node, port⟩ := e
  simp only [endpoint?, Option.bind_eq_bind, Option.bind_eq_some_iff, Option.pure_def,
    Option.some.injEq, Endpoint.mk.injEq]
  constructor
  · rintro ⟨_, hnode, _, hport, rfl, rfl⟩
    exact ⟨hnode, hport⟩
  · rintro ⟨hnode, hport⟩
    exact ⟨_, hnode, _, hport, rfl, rfl⟩

theorem Circuit.Closed.node_lt {c : Circuit} (hc : c.Closed) {l : Label} (hl : l ∈ c.labels) :
    l.target.node < c.nodes.length := by
  obtain ⟨e, he⟩ := hc.targets l hl
  obtain ⟨hnode, -⟩ := endpoint?_eq_some_iff.mp he
  exact (List.getElem?_eq_some_iff.mp hnode).1

/-- The port of a resolved label is the one that the netlist's label names. -/
theorem Netlist.endpoint?_labelOf (registry : Registry) {n : Netlist} {entry : String × Label}
    {c : Component} {p : Port} (hnode : n.nodes.lookup entry.2.node = some c)
    (hport : c.ports[entry.2.port]? = some p) :
    (n.circuit registry).endpoint? (Circuit.labelOf n.nodes entry).target =
      some ⟨Circuit.nodeOf registry (entry.2.node, c), p⟩ := by
  rw [Circuit.endpoint?_eq_some_iff]
  refine ⟨?_, hport⟩
  simp [circuit, Circuit.labelOf, Circuit.getElem?_findIdx_key hnode]

theorem Netlist.Resolvable.closed {n : Netlist} (hn : n.Resolvable) (registry : Registry) :
    (n.circuit registry).Closed := by
  constructor
  · intro l hl
    obtain ⟨entry, hentry, rfl⟩ := List.mem_map.mp hl
    obtain ⟨c, hnode, hport⟩ := hn.targets entry hentry
    exact ⟨_, endpoint?_labelOf registry hnode (List.getElem?_eq_getElem hport)⟩
  · intro node hnode
    obtain ⟨entry, hentry, rfl⟩ := List.mem_map.mp hnode
    exact hn.slots entry hentry

end Schematic
