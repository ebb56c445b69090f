import Schematic.Declaration.Emit
import Schematic.Proofs.Netlist.Attached
import Schematic.Proofs.Support.Supplies

namespace Schematic.Netlist

/-- What is free to choose when a support block is placed by hand. -/
structure Placement where
  key : String
  id : String
  busType : String
  powerType : String
  busLabel : String
  powerLabel : String

namespace Placement

def busPort (p : Placement) : Port :=
  ⟨"i2c", p.busType, false, none⟩

def powerPort (p : Placement) : Port :=
  ⟨"pwr", p.powerType, false, none⟩

/-- The component of a support block. -/
def component (p : Placement) (name : String) : Component where
  id := p.id
  name
  type := "I2cPullup"
  superClasses := []
  ports := [p.busPort, p.powerPort]
  arguments := []

/-- The labels of a support block, power before bus. -/
def labels (p : Placement) (power bus : String) : List (String × Label) :=
  [(p.powerLabel, ⟨power, p.key, 1⟩), (p.busLabel, ⟨bus, p.key, 0⟩)]

/-- No port has a type of the bus. -/
def Inert (p : Placement) : Prop :=
  ∀ type ∈ [p.busType, p.powerType], type ≠ "I2cController" ∧ type ≠ "I2cTarget"

end Placement

/-- The name of the connection at a position. -/
def labelAt (cs : Connections) (i : Nat) : String :=
  (cs.list[i]?.map (·.name)).getD ""

/-- The entries of support blocks that are placed by hand. -/
def placed (cs : Connections) (blocks : List (Support × Placement)) : Netlist where
  nodes := blocks.map fun (block, p) => (p.key, p.component block.name)
  labels := blocks.flatMap fun (block, p) =>
    p.labels (labelAt cs block.powerConnection) (labelAt cs block.busConnection)

/-- The entries of supplies that are placed by hand, which are told by their nets. -/
def realized (supplies : List (Supply × Placement)) : Netlist where
  nodes := supplies.map fun (s, p) => (p.key, p.component s.blockName)
  labels := supplies.flatMap fun (s, p) => p.labels s.power s.net

private theorem labelAt_connections {c : Circuit} {net : String} (hnet : net ∈ c.nets) :
    labelAt c.connections (c.nets.idxOf net) = net := by
  rw [labelAt, Connections.getElem?_connections hnet]
  rfl

theorem placed_eq_realized {c : Circuit} {supplies : List (Supply × Placement)}
    (hnets : ∀ x ∈ supplies, x.1.power ∈ c.nets ∧ x.1.net ∈ c.nets) :
    placed c.connections (supplies.map fun x => (x.1.support c, x.2)) = realized supplies := by
  have hlabels : (supplies.map fun x => (x.1.support c, x.2)).flatMap (fun (block, p) =>
      p.labels (labelAt c.connections block.powerConnection)
        (labelAt c.connections block.busConnection)) =
      supplies.flatMap fun (s, p) => p.labels s.power s.net := by
    rw [List.flatMap_map]
    refine List.flatMap_congr fun x hx => ?_
    obtain ⟨hpower, hbus⟩ := hnets x hx
    simp only [Supply.support, labelAt_connections hpower, labelAt_connections hbus]
  rw [placed, hlabels, List.map_map]
  rfl

section

variable {supplies : List (Supply × Placement)}

theorem mem_realized_labels {e : String × Label} :
    e ∈ (realized supplies).labels ↔
      ∃ s p, (s, p) ∈ supplies ∧
        (e = (p.powerLabel, ⟨s.power, p.key, 1⟩) ∨ e = (p.busLabel, ⟨s.net, p.key, 0⟩)) := by
  simp [realized, Placement.labels]

theorem exists_of_mem_nets_realized {registry : Registry} {net : String}
    (hnet : net ∈ ((realized supplies).circuit registry).nets) :
    ∃ s p, (s, p) ∈ supplies ∧ net ∈ [s.power, s.net] := by
  obtain ⟨_, hl, rfl⟩ := Circuit.mem_nets.mp hnet
  obtain ⟨e, he, rfl⟩ := List.mem_map.mp hl
  obtain ⟨s, p, hs, rfl | rfl⟩ := mem_realized_labels.mp he
  · exact ⟨s, p, hs, List.mem_cons_self⟩
  · exact ⟨s, p, hs, List.mem_cons_of_mem _ List.mem_cons_self⟩

variable (hkeys : (supplies.map (·.2.key)).Nodup)

include hkeys

private theorem lookup_realized {s : Supply} {p : Placement} (hs : (s, p) ∈ supplies) :
    (realized supplies).nodes.lookup p.key = some (p.component s.blockName) := by
  induction supplies with
  | nil => cases hs
  | cons x supplies ih =>
    obtain ⟨hx, hkeys⟩ := List.nodup_cons.mp hkeys
    rcases List.mem_cons.mp hs with rfl | hs
    · simp [realized]
    · have hne : (p.key == x.2.key) = false := by
        rw [beq_eq_false_iff_ne]
        exact fun hkey => hx (List.mem_map.mpr ⟨(s, p), hs, hkey⟩)
      rw [← ih hkeys hs, realized, List.map_cons, List.lookup_cons, hne]
      rfl

theorem resolvable_realized : (realized supplies).Resolvable := by
  constructor
  · intro e he
    obtain ⟨⟨s, p⟩, -, rfl⟩ := List.mem_map.mp he
    intro port hport k hslot
    simp only [Placement.component, List.mem_cons, List.not_mem_nil, or_false] at hport
    rcases hport with rfl | rfl <;> cases hslot
  · intro e he
    obtain ⟨s, p, hs, rfl | rfl⟩ := mem_realized_labels.mp he
    · exact ⟨_, lookup_realized hkeys hs, by simp [Placement.component]⟩
    · exact ⟨_, lookup_realized hkeys hs, by simp [Placement.component]⟩

theorem unshared_realized (registry : Registry) :
    ((realized supplies).circuit registry).Unshared := by
  rw [(resolvable_realized hkeys).unshared_circuit_iff, realized, List.map_flatMap,
    List.nodup_flatMap]
  refine ⟨fun x _ => by simp [Placement.labels], ?_⟩
  refine (List.pairwise_map.mp hkeys).imp fun {x y} hne place hx hy => hne ?_
  have hkey : ∀ {z : Supply × Placement},
      place ∈ (z.2.labels z.1.power z.1.net).map (fun e => (e.2.node, e.2.port)) →
        place.1 = z.2.key := by
    intro z hz
    simp only [Placement.labels, List.map_cons, List.map_nil, List.mem_cons, List.not_mem_nil,
      or_false] at hz
    rcases hz with rfl | rfl <;> rfl
  rw [← hkey hx, ← hkey hy]

theorem endpoints_realized (registry : Registry) (net : String) :
    ((realized supplies).circuit registry).endpoints
        (((realized supplies).circuit registry).wired net) =
      supplies.flatMap fun (s, p) =>
        let node := Circuit.nodeOf registry (p.key, p.component s.blockName)
        (if s.power = net then [⟨node, p.powerPort⟩] else []) ++
          if s.net = net then [⟨node, p.busPort⟩] else [] := by
  rw [endpoints_wired_circuit, realized, List.filter_flatMap, List.filterMap_flatMap, ← realized]
  refine List.flatMap_congr fun x hx => ?_
  obtain ⟨s, p⟩ := x
  have hlookup := lookup_realized hkeys hx
  have hpower : ∀ name, ((realized supplies).circuit registry).endpoint?
      ((realized supplies).refOf ⟨name, p.key, 1⟩) =
        some ⟨Circuit.nodeOf registry (p.key, p.component s.blockName), p.powerPort⟩ :=
    fun name => @endpoint?_labelOf registry _ (p.powerLabel, ⟨name, p.key, 1⟩) _ _ hlookup rfl
  have hbus : ∀ name, ((realized supplies).circuit registry).endpoint?
      ((realized supplies).refOf ⟨name, p.key, 0⟩) =
        some ⟨Circuit.nodeOf registry (p.key, p.component s.blockName), p.busPort⟩ :=
    fun name => @endpoint?_labelOf registry _ (p.busLabel, ⟨name, p.key, 0⟩) _ _ hlookup rfl
  by_cases hp : s.power = net <;> by_cases hb : s.net = net <;>
    simp [Placement.labels, hp, hb, hpower, hbus]

theorem mem_endpoints_realized {registry : Registry} {net : String} {e : Endpoint} :
    e ∈ ((realized supplies).circuit registry).endpoints
        (((realized supplies).circuit registry).wired net) ↔
      ∃ s p, (s, p) ∈ supplies ∧
        (s.power = net ∧
          e = ⟨Circuit.nodeOf registry (p.key, p.component s.blockName), p.powerPort⟩ ∨
          s.net = net ∧
            e = ⟨Circuit.nodeOf registry (p.key, p.component s.blockName), p.busPort⟩) := by
  simp only [endpoints_realized hkeys, List.mem_flatMap, List.mem_append, List.mem_ite_nil_right,
    List.mem_singleton, Prod.exists]

end

end Schematic.Netlist
