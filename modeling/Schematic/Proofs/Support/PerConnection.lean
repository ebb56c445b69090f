import Mathlib.Data.Fintype.EquivFin
import Mathlib.Tactic.TFAE
import Schematic.Proofs.Connection.Agreement
import Schematic.Proofs.Json.RoundTrip
import Schematic.Proofs.Lowering.Design
import Schematic.Proofs.Support.Insertions

namespace Schematic

/-- The rule knows some controllers, and where to find their power. -/
def BusRule.usable (rule : BusRule) : Bool :=
  !rule.controllerTypes.isEmpty && !rule.controllerPowerPorts.isEmpty

/-- The rules of a kind that can add blocks. -/
def Registry.usable (registry : Registry) (kind : BusKind) : List BusRule :=
  registry.buses.filter fun rule => rule.kind == kind && rule.usable

/-- The blocks of a kind that are added for a connection. -/
def Support.Additions.supportsOn (a : Additions) (kind : BusKind) (i : Nat) : List Support :=
  a.blocks.filter fun block => block.busConnection == i && block.bus == kind

namespace Support

/-- The power of the block that a trial adds, if it comes to one. -/
def Trial.powerOf? (c : Circuit) (cs : Connections) (t : Trial) : Option Nat :=
  (t.judge c cs).toOption.bind (·.power?)

section

variable {registry : Registry} {c : Circuit} {cs : Connections} {kind : BusKind} {i : Nat}

theorem Trial.Adds.powerOf?_eq {t : Trial} {power : Option Nat} (ht : t.Adds c cs power) :
    t.powerOf? c cs = power := by
  obtain ⟨⟨v, hv, hpower⟩, -⟩ := ht
  rw [powerOf?, hv]
  exact hpower

private theorem blocks_of_plan {a : Additions} (ha : plan registry c cs = .ok a) :
    a.blocks = (trials registry cs).filterMap fun t => (t.powerOf? c cs).map t.block := by
  have hadds : ∀ t ∈ trials registry cs, t.Adds c cs (t.powerOf? c cs) := by
    intro t ht
    obtain ⟨power, hadds⟩ := exists_adds_of_plan ha t ht
    rw [hadds.powerOf?_eq]
    exact hadds
  obtain ⟨a', ha', hblocks, -⟩ := plan_spec _ hadds
  cases ha.symm.trans ha'
  exact hblocks

/-- The block of a trial is of the kind of its rule and on its connection. -/
theorem Trial.filter_block (t : Trial) (power : Option Nat) :
    (power.map t.block).filter (fun block => block.busConnection == i && block.bus == kind) =
      if t.connection.id == i && t.rule.kind == kind then power.map t.block else none := by
  cases power <;> simp [Option.filter, block]

/-- The blocks of a kind at a connection are those of the rules of that kind. -/
theorem supportsOn_of_plan (hcs : cs.Indexed) {a : Additions} (ha : plan registry c cs = .ok a)
    (kind : BusKind) (i : Nat) :
    a.supportsOn kind i = cs.list[i]?.toList.flatMap fun k =>
      (registry.buses.filter (·.kind == kind)).filterMap fun rule =>
        ((Trial.mk k i rule).powerOf? c cs).map (Trial.mk k i rule).block := by
  have hids : ∀ entry ∈ cs.list.zipIdx, entry.1.id = entry.2 :=
    fun entry hentry => hcs.ids _ _ (List.mem_zipIdx_iff_getElem?.mp hentry)
  calc a.supportsOn kind i
      = cs.list.zipIdx.flatMap fun entry => registry.buses.filterMap fun rule =>
          if entry.2 == i && rule.kind == kind then
            ((Trial.mk entry.1 entry.2 rule).powerOf? c cs).map
              (Trial.mk entry.1 entry.2 rule).block
          else none := by
        rw [Additions.supportsOn, blocks_of_plan ha, trials, List.filterMap_flatMap,
          List.filter_flatMap]
        refine List.flatMap_congr fun entry hentry => ?_
        rw [List.filterMap_map, List.filter_filterMap]
        refine List.filterMap_congr fun rule _ => ?_
        rw [Function.comp_apply, Trial.filter_block, hids entry hentry]
    _ = _ := by
        rw [flatMap_zipIdx_of_single (i := i)]
        · simp only [beq_self_eq_true, Bool.true_and, List.filterMap_filter]
        · intro k j hj
          simp [hj]

private theorem length_supportsOn (hcs : cs.Indexed) {a : Additions}
    (ha : plan registry c cs = .ok a) {k : Connection} (hk : cs.list[i]? = some k) :
    (a.supportsOn kind i).length = registry.buses.countP fun rule =>
      rule.kind == kind && ((Trial.mk k i rule).powerOf? c cs).isSome := by
  rw [supportsOn_of_plan hcs ha, hk, Option.toList_some, List.flatMap_singleton,
    List.length_filterMap_eq_countP, List.countP_filter]
  simp only [Option.isSome_map, Bool.and_comm]

/-- A rule that adds a block knows a controller and a name for its power. -/
theorem usable_of_powerOf? {t : Trial} (ht : (t.powerOf? c cs).isSome = true) :
    t.rule.usable = true := by
  obtain ⟨power, hpower⟩ := Option.isSome_iff_exists.mp ht
  obtain ⟨v, hv, hpower⟩ := Option.bind_eq_some_iff.mp hpower
  obtain ⟨-, hfound⟩ := Trial.power?_of_judge (eq_ok_of_toOption_eq_some hv) hpower
  obtain ⟨m, -, hm⟩ := exists_of_findSomeM?_eq_some hfound
  obtain ⟨e, -, hm⟩ := bind_eq_ok_iff.mp hm
  split at hm
  next htype =>
    obtain ⟨name, hname, -⟩ := exists_of_findSomeM?_eq_some hm
    have htype : e.port.type ∈ t.rule.controllerTypes := by
      simpa [BusRule.isController] using htype
    simp [BusRule.usable, List.ne_nil_of_mem htype, List.ne_nil_of_mem hname]
  next => cases hm

private theorem length_supportsOn_le (hcs : cs.Indexed) {a : Additions}
    (ha : plan registry c cs = .ok a) (kind : BusKind) (i : Nat) :
    (a.supportsOn kind i).length ≤ (registry.usable kind).length := by
  cases hk : cs.list[i]? with
  | none => simp [supportsOn_of_plan hcs ha, hk]
  | some k =>
    rw [length_supportsOn hcs ha hk, Registry.usable, ← List.countP_eq_length_filter]
    apply List.countP_mono_left
    intro rule _ hadds
    obtain ⟨hkind, hpower⟩ := Bool.and_eq_true_iff.mp hadds
    rw [hkind, Bool.true_and]
    exact usable_of_powerOf? hpower

end

end Support

/-- A port that has the type of a controller of the rule and the name of its power port. -/
def BusRule.controllerPort (rule : BusRule) : Port where
  name := rule.controllerPowerPorts.headD ""
  type := rule.controllerTypes.headD ""
  isArray := false
  slotOf := none

theorem BusRule.controllerPort_of_usable {rule : BusRule} (hrule : rule.usable = true) :
    rule.controllerPort.type ∈ rule.controllerTypes ∧
      rule.controllerPort.name ∈ rule.controllerPowerPorts := by
  unfold controllerPort
  unfold usable at hrule
  cases htypes : rule.controllerTypes with
  | nil => simp [htypes] at hrule
  | cons type types =>
    cases hnames : rule.controllerPowerPorts with
    | nil => simp [hnames] at hrule
    | cons name names => simp

/-- A component with a port for each of some rules. -/
def Component.controllers (type : String) (rules : List BusRule) : Component where
  id := "u"
  name := "U1"
  type := type
  superClasses := []
  ports := rules.map (·.controllerPort)
  arguments := []

theorem Registry.roleOf_ne_support {registry : Registry} {type : String}
    (htype : ∀ rule ∈ registry.buses, type ≠ rule.supportClass) (kind : BusKind) :
    registry.roleOf type [] ≠ .support kind := by
  have hnone : registry.buses.find? (fun rule => type == rule.supportClass ||
      ([] : List String).contains rule.supportClass) = none := by
    simpa using htype
  unfold roleOf
  dsimp only
  rw [hnone]
  split <;> simp

/-- A circuit of one node, all ports of which are on one net. -/
def Circuit.oneNet (node : Circuit.Node) : Circuit where
  nodes := [node]
  labels := (List.range node.ports.length).map fun p => ⟨Decimal.natural p, "net", ⟨0, p⟩⟩

/-- A netlist of one component, all ports of which are on one net. -/
def Netlist.oneNet (component : Component) : Netlist where
  nodes := [("u", component)]
  labels := (List.range component.ports.length).map fun p => (Decimal.natural p, ⟨"net", "u", p⟩)

namespace Circuit

private theorem ofNetlist_oneNet (registry : Registry) {component : Component}
    (hslots : component.SlotsSound) :
    ofNetlist registry (Netlist.oneNet component) =
      .ok (oneNet (nodeOf registry ("u", component))) := by
  refine ofNetlist_eq_ok_iff.mpr ⟨⟨?_, ?_⟩, ?_⟩
  · intro entry hentry
    cases List.mem_singleton.mp hentry
    exact hslots
  · intro entry hentry
    obtain ⟨p, hp, rfl⟩ := List.mem_map.mp hentry
    exact ⟨component, rfl, List.mem_range.mp hp⟩
  · simp only [Netlist.circuit, Netlist.oneNet, List.map_map]
    rfl

section

variable {node : Circuit.Node}

private theorem unshared_oneNet (node : Circuit.Node) : (oneNet node).Unshared := by
  unfold Unshared oneNet
  rw [List.map_map]
  apply List.nodup_range.map
  intro p q hsame
  exact congrArg PortRef.port hsame

private theorem endpoint?_oneNet {r : PortRef} {e : Endpoint} :
    (oneNet node).endpoint? r = some e ↔
      r.node = 0 ∧ e.node = node ∧ node.ports[r.port]? = some e.port := by
  rw [endpoint?_eq_some_iff, oneNet, List.getElem?_singleton]
  constructor
  · intro hat
    obtain ⟨hnode, hport⟩ := hat
    split at hnode
    next hzero =>
      cases hnode
      exact ⟨hzero, rfl, hport⟩
    next => cases hnode
  · intro hat
    obtain ⟨hzero, hnode, hport⟩ := hat
    rw [if_pos hzero, hnode]
    exact ⟨rfl, hport⟩

theorem mem_labels_oneNet {p : Nat} (hp : p < node.ports.length) :
    ⟨Decimal.natural p, "net", ⟨0, p⟩⟩ ∈ (oneNet node).labels :=
  List.mem_map_of_mem (List.mem_range.mpr hp)

private theorem within_oneNet (node : Circuit.Node) :
    ((oneNet node).connection "net").Within (oneNet node) := by
  intro r hr
  obtain ⟨l, hl, -, rfl⟩ := mem_wired.mp hr
  obtain ⟨p, hp, rfl⟩ := List.mem_map.mp hl
  have hport := List.getElem?_eq_getElem (List.mem_range.mp hp)
  exact ⟨⟨node, _⟩, endpoint?_oneNet.mpr ⟨rfl, rfl, hport⟩⟩

end

end Circuit

namespace Support

private theorem shape_oneNet {node : Circuit.Node} (hnode : ∀ p ∈ node.ports, p.isArray = false) :
    ((Circuit.oneNet node).connection "net").shape (.oneNet node) ≠ .ok .array := by
  intro hshape
  rw [Connection.shape_of_unknown rfl] at hshape
  have hagrees : ((Circuit.oneNet node).connection "net").Agrees (.oneNet node) true :=
    (Circuit.within_oneNet node).shapeIn_eq_ofPort_iff.mp hshape
  obtain ⟨r, hr, e, he, hslot⟩ := hagrees.solid
  have harray := hagrees.alike r hr e he hslot
  obtain ⟨-, -, hport⟩ := Circuit.endpoint?_oneNet.mp he
  rw [hnode e.port (List.mem_of_getElem? hport)] at harray
  cases harray

/-- A rule adds its block to the net if the node has a port that is a controller and has a name for
power. -/
theorem isSome_powerAt?_oneNet {node : Circuit.Node} {rule : BusRule} {port : Port}
    (hnode : ∀ p ∈ node.ports, p.isArray = false) (hrole : node.role ≠ .support rule.kind)
    (hport : port ∈ node.ports) (htype : port.type ∈ rule.controllerTypes)
    (hname : port.name ∈ rule.controllerPowerPorts) :
    (powerAt? (.oneNet node) "net" rule).isSome = true := by
  have hcontroller : rule.isController port.type = true := by
    simpa [BusRule.isController] using htype
  obtain ⟨p, hp⟩ := List.getElem?_of_mem hport
  have hlabel := Circuit.mem_labels_oneNet (List.getElem?_eq_some_iff.mp hp).1
  have hmem := Circuit.mem_wired.mpr ⟨_, hlabel, rfl, rfl⟩
  have he : (Circuit.oneNet node).endpoint? ⟨0, p⟩ = some ⟨node, port⟩ :=
    Circuit.endpoint?_oneNet.mpr ⟨rfl, rfl, hp⟩
  have hneeds : (Circuit.oneNet node).needsSupport rule "net" = true := by
    refine Circuit.needsSupport_iff.mpr ⟨⟨_, Circuit.mem_endpoints.mpr ⟨_, hmem, he⟩, .inl ?_⟩, ?_⟩
    · exact hcontroller
    · intro e hat
      obtain ⟨r, -, hat⟩ := Circuit.mem_endpoints.mp hat
      rw [(Circuit.endpoint?_oneNet.mp hat).2.1]
      exact hrole
  have hsingle : (((Circuit.oneNet node).connection "net").shape (.oneNet node)).toOption ≠
      some .array := fun hshape => shape_oneNet hnode (eq_ok_of_toOption_eq_some hshape)
  -- The first port with that name is on the net, too, as all ports are.
  have hpowered : ((Circuit.oneNet node).powerNet? rule "net").isSome = true := by
    obtain ⟨q, hq⟩ : ∃ q, node.findPort? port.name = some q := by
      rw [← Option.isSome_iff_exists, Component.findPort?, List.findIdx?_isSome]
      exact List.any_eq_true.mpr ⟨port, hport, beq_self_eq_true _⟩
    obtain ⟨_, hat, -⟩ := Component.findPort?_eq_some_iff.mp hq
    have hpower := Circuit.mem_labels_oneNet (List.getElem?_eq_some_iff.mp hat).1
    exact Circuit.powerNet?_isSome_iff.mpr
      ⟨_, hmem, _, he, hcontroller, _, hname, q, hq, _, hpower, rfl⟩
  simpa [powerAt?, hneeds, hsingle] using hpowered

private theorem usable_le_length_supportsOn_oneNet {registry : Registry} {kind : BusKind}
    {node : Circuit.Node} (hports : node.ports = (registry.usable kind).map (·.controllerPort))
    (hrole : node.role ≠ .support kind) {a : Additions}
    (ha : plan registry (.oneNet node) (Circuit.oneNet node).connections = .ok a) :
    (registry.usable kind).length ≤
      (a.supportsOn kind ((Circuit.oneNet node).nets.idxOf "net")).length := by
  rcases Nat.eq_zero_or_pos (registry.usable kind).length with hnone | hsome
  · rw [hnone]
    exact Nat.zero_le _
  have hscalar : ∀ p ∈ node.ports, p.isArray = false := by
    intro p hp
    rw [hports] at hp
    obtain ⟨rule, -, rfl⟩ := List.mem_map.mp hp
    rfl
  have hnet : "net" ∈ (Circuit.oneNet node).nets := by
    have hfirst : 0 < node.ports.length := by simpa [hports] using hsome
    exact Circuit.mem_nets.mpr ⟨_, Circuit.mem_labels_oneNet hfirst, rfl⟩
  rw [length_supportsOn (Connections.indexed_connections (Circuit.unshared_oneNet node)) ha
    (Connections.getElem?_connections hnet), Registry.usable, ← List.countP_eq_length_filter]
  apply List.countP_mono_left
  intro rule hrule huse
  obtain ⟨hkind, husable⟩ := Bool.and_eq_true_iff.mp huse
  obtain ⟨htype, hname⟩ := BusRule.controllerPort_of_usable husable
  have hport : rule.controllerPort ∈ node.ports := by
    rw [hports]
    exact List.mem_map_of_mem (List.mem_filter.mpr ⟨hrule, huse⟩)
  have hadds := adds_trialAt hnet (Circuit.within_oneNet node) rule
  rw [hkind, Bool.true_and]
  rw [← eq_of_beq hkind] at hrole
  change ((trialAt (.oneNet node) "net" rule).powerOf? _ _).isSome = true
  rw [hadds.powerOf?_eq]
  exact isSome_powerAt?_oneNet hscalar hrole hport htype hname

/-- There is a netlist in which a connection gets a block of each rule that can add any. -/
theorem exists_usable_le_length_supportsOn (registry : Registry) (kind : BusKind) :
    ∃ n c cs, Circuit.ofNetlist registry n = .ok c ∧ Connections.ofCircuit c = .ok cs ∧
      ∀ a, plan registry c cs = .ok a →
        ∃ i, (registry.usable kind).length ≤ (a.supportsOn kind i).length := by
  -- A component that is a support block itself would keep others from being added.
  obtain ⟨type, htype⟩ :=
    Infinite.exists_notMem_finset (registry.buses.map (·.supportClass)).toFinset
  have hrole : registry.roleOf type [] ≠ .support kind := by
    apply Registry.roleOf_ne_support
    intro rule hrule hsame
    apply htype
    rw [List.mem_toFinset, hsame]
    exact List.mem_map_of_mem hrule
  have hslots : (Component.controllers type (registry.usable kind)).SlotsSound := by
    intro p hp parent hparent
    obtain ⟨rule, -, rfl⟩ := List.mem_map.mp hp
    cases hparent
  exact ⟨_, _, _, Circuit.ofNetlist_oneNet registry hslots,
    Connections.ofCircuit_eq_ok_iff.mpr ⟨Circuit.unshared_oneNet _, rfl⟩,
    fun a ha => ⟨_, usable_le_length_supportsOn_oneNet rfl hrole ha⟩⟩

/-- A connection gets one block of a kind at most, in whatever circuit, if and only if it does in
the circuits of netlists, and if and only if at most one rule of the kind can add blocks. -/
theorem plan_single_tfae (registry : Registry) (kind : BusKind) :
    List.TFAE [
      ∀ c cs a, Connections.ofCircuit c = .ok cs → plan registry c cs = .ok a →
        ∀ i, (a.supportsOn kind i).length ≤ 1,
      ∀ n c cs, Circuit.ofNetlist registry n = .ok c → Connections.ofCircuit c = .ok cs →
        ∃ a, plan registry c cs = .ok a ∧ ∀ i, (a.supportsOn kind i).length ≤ 1,
      (registry.usable kind).length ≤ 1] := by
  tfae_have 1 → 2 := by
    intro hall n c cs hc hcs
    obtain ⟨hn, rfl⟩ := Circuit.ofNetlist_eq_ok_iff.mp hc
    obtain ⟨-, rfl⟩ := Connections.ofCircuit_eq_ok_iff.mp hcs
    obtain ⟨a, ha, -⟩ := plan_located (hn.closed registry).targets registry
    exact ⟨a, ha, hall _ _ a hcs ha⟩
  tfae_have 2 → 3 := by
    intro hall
    obtain ⟨n, c, cs, hc, hcs, hadds⟩ := exists_usable_le_length_supportsOn registry kind
    obtain ⟨a, ha, hsingle⟩ := hall n c cs hc hcs
    obtain ⟨i, hle⟩ := hadds a ha
    exact hle.trans (hsingle i)
  tfae_have 3 → 1 := by
    intro husable c cs a hcs ha i
    obtain ⟨hshared, rfl⟩ := Connections.ofCircuit_eq_ok_iff.mp hcs
    exact (length_supportsOn_le (Connections.indexed_connections hshared) ha kind i).trans husable
  tfae_finish

end Support

/-- The built-in registry with a second rule for the same bus, which adds a filter. -/
def Registry.filtered : Registry :=
  { builtin with
    buses := builtin.buses ++ [{
      kind := .i2c
      controllerTypes := ["I2cController"]
      targetTypes := ["I2cTarget"]
      supportClass := "I2cFilter"
      supportBusPort := "i2c"
      supportPowerPort := "pwr"
      controllerPowerPorts := ["pwr"]
      supportStem := "_implicit_i2c_filter_" }] }

/-- What the two rules add to a bus. -/
def Registry.filteredAdditions : Support.Additions where
  blocks := [⟨"_implicit_i2c_pullup_bus", "I2cPullup", .i2c, 0, 1⟩,
    ⟨"_implicit_i2c_filter_bus", "I2cFilter", .i2c, 0, 1⟩]
  members := [[⟨"_implicit_i2c_pullup_bus", "i2c"⟩, ⟨"_implicit_i2c_filter_bus", "i2c"⟩],
    [⟨"_implicit_i2c_pullup_bus", "pwr"⟩, ⟨"_implicit_i2c_filter_bus", "pwr"⟩]]

/-- The registry is accepted, and a bus gets a block of each of its rules. -/
theorem Registry.filtered_two_supports :
    Registry.load filtered.canonical = .ok filtered ∧
    ∃ c cs, Circuit.ofNetlist filtered (.busBoard "mcu" "bus" "v") = .ok c ∧
      Connections.ofCircuit c = .ok cs ∧ Support.plan filtered c cs = .ok filteredAdditions ∧
      filteredAdditions.supportsOn .i2c 0 = [⟨"_implicit_i2c_pullup_bus", "I2cPullup", .i2c, 0, 1⟩,
        ⟨"_implicit_i2c_filter_bus", "I2cFilter", .i2c, 0, 1⟩] := by
  refine ⟨(Registry.load_canonical_iff filtered).mpr (by decide +kernel), ?_⟩
  exact ⟨_, _, rfl, rfl, eq_ok_of_toOption_eq_some (by decide +kernel), by decide⟩

end Schematic
