import Schematic.Proofs.Connection.Uniform
import Schematic.Proofs.Support.Planning

namespace Schematic

/-- A support block for the bus on a net, powered from another net. -/
structure Supply where
  net : String
  rule : BusRule
  power : String

namespace Supply

def blockName (s : Supply) : String :=
  s.rule.supportStem ++ s.net

/-- The ports of the block that stand on a net. -/
def membersOn (s : Supply) (net : String) : List Support.Member :=
  (if s.power = net then [⟨s.blockName, s.rule.supportPowerPort⟩] else []) ++
    (if s.net = net then [⟨s.blockName, s.rule.supportBusPort⟩] else [])

end Supply

namespace Circuit

/-- The net of the first power port of a port's node that has one. -/
def nodePowerNet? (c : Circuit) (rule : BusRule) (node : Node) (n : Nat) : Option String :=
  rule.controllerPowerPorts.findSome? fun name => (node.findPort? name).bind fun p =>
    c.netOf? ⟨n, p⟩

/-- The net that powers the first controller on a net that has one. -/
def powerNet? (c : Circuit) (rule : BusRule) (net : String) : Option String :=
  (c.wired net).findSome? fun m => (c.endpoint? m).bind fun e =>
    if rule.isController e.port.type then c.nodePowerNet? rule e.node m.node else none

/-- Some port of a net has a type of the bus, and none belongs to a support block of it. -/
def needsSupport (c : Circuit) (rule : BusRule) (net : String) : Bool :=
  (c.endpoints (c.wired net)).any
      (fun e => rule.isController e.port.type || rule.isTarget e.port.type) &&
    !(c.endpoints (c.wired net)).any (·.node.role == .support rule.kind)

/-- What a bus rule adds to a net, if anything. -/
def supplyAt? (c : Circuit) (net : String) (rule : BusRule) : Option Supply :=
  if c.needsSupport rule net && !c.carriesArray net then
    (c.powerNet? rule net).map fun power => ⟨net, rule, power⟩
  else none

/-- What the bus rules add, in the order of nets and then of rules. -/
def supplies (registry : Registry) (c : Circuit) : List Supply :=
  c.nets.flatMap fun net => registry.buses.filterMap (c.supplyAt? net)

theorem supplyAt?_eq_some_iff {c : Circuit} {net : String} {rule : BusRule} {s : Supply} :
    c.supplyAt? net rule = some s ↔
      c.needsSupport rule net = true ∧ c.carriesArray net = false ∧
        c.powerNet? rule net = some s.power ∧ s.net = net ∧ s.rule = rule := by
  obtain ⟨net', rule', power⟩ := s
  simp only [supplyAt?, Bool.and_eq_true, Bool.not_eq_true']
  by_cases hneeds : c.needsSupport rule net = true ∧ c.carriesArray net = false
  · rw [if_pos hneeds]
    simp only [hneeds, true_and, Option.map_eq_some_iff, Supply.mk.injEq]
    constructor
    · rintro ⟨_, hpower, rfl, rfl, rfl⟩
      exact ⟨hpower, rfl, rfl⟩
    · rintro ⟨hpower, rfl, rfl⟩
      exact ⟨_, hpower, rfl, rfl, rfl⟩
  · rw [if_neg hneeds]
    simp only [reduceCtorEq, false_iff]
    rintro ⟨hneed, harray, -⟩
    exact hneeds ⟨hneed, harray⟩

theorem supplyAt?_isSome_iff {c : Circuit} {net : String} {rule : BusRule} :
    (c.supplyAt? net rule).isSome = true ↔
      c.needsSupport rule net = true ∧ c.carriesArray net = false ∧
        (c.powerNet? rule net).isSome = true := by
  unfold supplyAt?
  cases c.needsSupport rule net <;> cases c.carriesArray net <;> simp

/-- A net needs support if it carries the bus and no node on it supports it. -/
theorem needsSupport_iff {c : Circuit} {rule : BusRule} {net : String} :
    c.needsSupport rule net = true ↔
      (∃ e ∈ c.endpoints (c.wired net),
        rule.isController e.port.type = true ∨ rule.isTarget e.port.type = true) ∧
      ∀ e ∈ c.endpoints (c.wired net), e.node.role ≠ .support rule.kind := by
  simp only [needsSupport, Bool.and_eq_true, Bool.not_eq_true', List.any_eq_true,
    List.any_eq_false, Bool.or_eq_true, beq_iff_eq, ne_eq]

theorem needsSupport_congr {c d : Circuit} {net : String}
    (hports : ∀ e, e ∈ c.endpoints (c.wired net) ↔ e ∈ d.endpoints (d.wired net)) (rule : BusRule) :
    c.needsSupport rule net = d.needsSupport rule net := by
  rw [Bool.eq_iff_iff, needsSupport_iff, needsSupport_iff]
  simp only [hports]

theorem mem_supplies {registry : Registry} {c : Circuit} {s : Supply} :
    s ∈ c.supplies registry ↔
      s.net ∈ c.nets ∧ s.rule ∈ registry.buses ∧ c.supplyAt? s.net s.rule = some s := by
  simp only [supplies, List.mem_flatMap, List.mem_filterMap]
  constructor
  · rintro ⟨net, hnet, rule, hrule, hs⟩
    obtain ⟨-, -, -, rfl, rfl⟩ := supplyAt?_eq_some_iff.mp hs
    exact ⟨hnet, hrule, hs⟩
  · rintro ⟨hnet, hrule, hs⟩
    exact ⟨_, hnet, _, hrule, hs⟩

theorem mem_nets_of_powerNet? {c : Circuit} {rule : BusRule} {net power : String}
    (hpower : c.powerNet? rule net = some power) : power ∈ c.nets := by
  obtain ⟨m, -, hm⟩ := List.exists_of_findSome?_eq_some hpower
  obtain ⟨e, -, he⟩ := Option.bind_eq_some_iff.mp hm
  split at he
  · obtain ⟨name, -, hname⟩ := List.exists_of_findSome?_eq_some he
    obtain ⟨p, -, hp⟩ := Option.bind_eq_some_iff.mp hname
    exact mem_nets_of_netOf? hp
  · cases he

theorem mem_nets_of_mem_supplies {registry : Registry} {c : Circuit} {s : Supply}
    (hs : s ∈ c.supplies registry) : s.power ∈ c.nets ∧ s.net ∈ c.nets := by
  obtain ⟨hbus, -, hsupply⟩ := mem_supplies.mp hs
  obtain ⟨-, -, hpower, -, -⟩ := supplyAt?_eq_some_iff.mp hsupply
  exact ⟨mem_nets_of_powerNet? hpower, hbus⟩

theorem flatMap_membersOn_eq_nil {registry : Registry} {c : Circuit} {net : String}
    (hnet : net ∉ c.nets) : (c.supplies registry).flatMap (fun s => s.membersOn net) = [] := by
  rw [List.flatMap_eq_nil_iff]
  intro s hs
  obtain ⟨hpower, hbus⟩ := mem_nets_of_mem_supplies hs
  have hbus : s.net ≠ net := fun h => hnet (h ▸ hbus)
  have hpower : s.power ≠ net := fun h => hnet (h ▸ hpower)
  simp [Supply.membersOn, hbus, hpower]

/-- A net is powered if some controller on it has some power port that is labelled, whichever of
them comes first. -/
theorem powerNet?_isSome_iff {c : Circuit} {rule : BusRule} {net : String} :
    (c.powerNet? rule net).isSome = true ↔
      ∃ r ∈ c.wired net, ∃ e, c.endpoint? r = some e ∧ rule.isController e.port.type = true ∧
        ∃ name ∈ rule.controllerPowerPorts, ∃ k, e.node.findPort? name = some k ∧
          ∃ l ∈ c.labels, l.target = ⟨r.node, k⟩ := by
  have hnode : ∀ node n, (c.nodePowerNet? rule node n).isSome = true ↔
      ∃ name ∈ rule.controllerPowerPorts, ∃ k, node.findPort? name = some k ∧
        ∃ l ∈ c.labels, l.target = ⟨n, k⟩ := by
    intro node n
    simp only [nodePowerNet?, List.findSome?_isSome_iff, Option.isSome_bind, Option.any_eq_true,
      netOf?_isSome_iff]
  simp only [powerNet?, List.findSome?_isSome_iff, Option.isSome_bind, Option.any_eq_true, ← hnode]
  refine exists_congr fun r => and_congr_right fun _ => exists_congr fun e =>
    and_congr_right fun _ => ?_
  split <;> simp_all

end Circuit

namespace Support

private theorem nodePower?_connections (c : Circuit) (rule : BusRule) (node : Circuit.Node)
    (n : Nat) :
    nodePower? c.connections rule node n =
      .ok ((c.nodePowerNet? rule node n).map c.nets.idxOf) := by
  rw [Circuit.nodePowerNet?, List.map_findSome?]
  refine findSomeM?_eq_ok fun name _ => ?_
  rw [Function.comp_apply]
  cases node.findPort? name with
  | none => rfl
  | some p =>
    dsimp only
    rw [Connections.owner?_connections, Option.bind_some]
    cases c.netOf? ⟨n, p⟩ <;> rfl

section

variable {c : Circuit} {net : String} (htargets : ∀ r ∈ c.wired net, ∃ e, c.endpoint? r = some e)

include htargets

private theorem anyM_endpoint (test : Endpoint → Bool) :
    ((c.wired net).anyM fun r => do return test (← c.endpoint r)) =
      .ok ((c.endpoints (c.wired net)).any test) := by
  rw [Circuit.endpoints, List.any_filterMap]
  refine anyM_eq_ok fun r hr => ?_
  obtain ⟨e, he⟩ := htargets r hr
  rw [Circuit.endpoint_eq_ok_iff.mpr he, he]
  rfl

private theorem needsSupport_connection (rule : BusRule) :
    needsSupport c rule (c.connection net) = .ok (c.needsSupport rule net) := by
  have hcarries : carries c rule (c.connection net) = .ok ((c.endpoints (c.wired net)).any
      fun e => rule.isController e.port.type || rule.isTarget e.port.type) :=
    anyM_endpoint htargets _
  have hsupported : isSupported c rule.kind (c.connection net) =
      .ok ((c.endpoints (c.wired net)).any (·.node.role == .support rule.kind)) :=
    anyM_endpoint htargets _
  rw [needsSupport, hcarries, hsupported, Circuit.needsSupport]
  cases (c.endpoints (c.wired net)).any
    fun e => rule.isController e.port.type || rule.isTarget e.port.type <;> rfl

private theorem power?_connections (rule : BusRule) :
    power? c c.connections rule (c.connection net) =
      .ok ((c.powerNet? rule net).map c.nets.idxOf) := by
  rw [Circuit.powerNet?, List.map_findSome?]
  refine findSomeM?_eq_ok fun r hr => ?_
  obtain ⟨e, he⟩ := htargets r hr
  rw [Function.comp_apply, Circuit.endpoint_eq_ok_iff.mpr he, he, ok_bind, Option.bind_some]
  split
  · exact nodePower?_connections c rule e.node r.node
  · rfl

end

end Support

/-- The support block of a supply, by the positions of its nets. -/
def Supply.support (c : Circuit) (s : Supply) : Support where
  name := s.blockName
  className := s.rule.supportClass
  bus := s.rule.kind
  busConnection := c.nets.idxOf s.net
  powerConnection := c.nets.idxOf s.power

/-- The ports of a supply, by the positions of their nets. -/
def Supply.ports (c : Circuit) (s : Supply) : List (Nat × Support.Member) :=
  [(c.nets.idxOf s.power, ⟨s.blockName, s.rule.supportPowerPort⟩),
    (c.nets.idxOf s.net, ⟨s.blockName, s.rule.supportBusPort⟩)]

namespace Support

/-- The trial of a rule on the connection of a net. -/
def trialAt (c : Circuit) (net : String) (rule : BusRule) : Trial :=
  ⟨c.connection net, c.nets.idxOf net, rule⟩

theorem trials_connections (registry : Registry) (c : Circuit) :
    trials registry c.connections =
      c.nets.flatMap fun net => registry.buses.map (trialAt c net) := by
  rw [trials, Connections.zipIdx_connections, List.flatMap_map]
  rfl

theorem mem_trials_connections {registry : Registry} {c : Circuit} {t : Trial} :
    t ∈ trials registry c.connections ↔
      ∃ net ∈ c.nets, ∃ rule ∈ registry.buses, t = trialAt c net rule := by
  simp only [trials_connections, List.mem_flatMap, List.mem_map, eq_comm]

/-- The position of the net that powers the block of a rule on a net, if one is added. -/
def powerAt? (c : Circuit) (net : String) (rule : BusRule) : Option Nat :=
  if c.needsSupport rule net && ((c.connection net).shape c).toOption != some .array then
    (c.powerNet? rule net).map c.nets.idxOf
  else none

/-- A rule adds its block to a net that needs it, that is no array and that is powered. -/
theorem adds_trialAt {c : Circuit} {net : String} (hnet : net ∈ c.nets)
    (htargets : ∀ r ∈ c.wired net, ∃ e, c.endpoint? r = some e) (rule : BusRule) :
    (trialAt c net rule).Adds c c.connections (powerAt? c net rule) := by
  have hshape : (Inquiry.shape? (c.nets.idxOf net)).result (c.connections.answers c) =
      .ok ((c.connection net).shape c).toOption := by
    rw [Inquiry.result_shape?,
      Connections.answers_of_getElem? (Connections.getElem?_connections hnet)]
    cases hshape : (c.connection net).shape c with
    | ok s => rfl
    | error f =>
      rw [Connection.shape_of_unknown rfl] at hshape
      have hlost := Connection.isLost_of_shapeIn_eq_error htargets hshape
      simp [hlost, Except.toOption]
  constructor
  · exact Trial.judge_spec (needsSupport_connection htargets rule) hshape
      (power?_connections htargets rule)
  · intro p hp
    rw [powerAt?] at hp
    split at hp
    · obtain ⟨power, hpower, rfl⟩ := Option.map_eq_some_iff.mp hp
      exact ⟨_, Connections.get_connections (Circuit.mem_nets_of_powerNet? hpower)⟩
    · cases hp

/-- The blocks that are added lie on connections that are there. -/
def Additions.Located (cs : Connections) (a : Additions) : Prop :=
  ∀ s ∈ a.blocks, (∃ k, cs.get s.busConnection = .ok k) ∧ ∃ k, cs.get s.powerConnection = .ok k

section

variable {c : Circuit} (htargets : ∀ l ∈ c.labels, ∃ e, c.endpoint? l.target = some e)
  (registry : Registry)

include htargets

theorem adds_connections : ∀ t ∈ trials registry c.connections,
    t.Adds c c.connections (powerAt? c t.connection.name t.rule) := by
  intro t ht
  obtain ⟨net, hnet, rule, -, rfl⟩ := mem_trials_connections.mp ht
  refine adds_trialAt hnet (fun r hr => ?_) rule
  obtain ⟨l, hl, -, rfl⟩ := Circuit.mem_wired.mp hr
  exact htargets l hl

theorem plan_located :
    ∃ a, plan registry c c.connections = .ok a ∧ a.Located c.connections := by
  have hadds := adds_connections htargets registry
  obtain ⟨a, ha, hblocks, -⟩ := plan_spec _ hadds
  refine ⟨a, ha, fun s hs => ?_⟩
  rw [hblocks] at hs
  obtain ⟨t, ht, hs⟩ := List.mem_filterMap.mp hs
  obtain ⟨power, hpower, rfl⟩ := Option.map_eq_some_iff.mp hs
  obtain ⟨net, hnet, rule, -, rfl⟩ := mem_trials_connections.mp ht
  exact ⟨⟨_, Connections.get_connections hnet⟩, (hadds _ ht).2 power hpower⟩

end

private theorem powerAt?_eq {c : Circuit} (hclosed : c.Closed) {net : String}
    (huniform : c.Uniform net) (rule : BusRule) :
    powerAt? c net rule = (c.supplyAt? net rule).map fun s => c.nets.idxOf s.power := by
  have hshape := (Connection.shape_connection_eq_ok_iff hclosed).mpr ⟨huniform, rfl⟩
  have harray : (some (c.shapeOf net) != some .array) = !c.carriesArray net := by
    have hsame : (some (c.shapeOf net) == some .array) = c.carriesArray net := by
      rw [Bool.eq_iff_iff, ← huniform.shapeOf_eq_array_iff]
      simp
    rw [bne, hsame]
  rw [powerAt?, Circuit.supplyAt?, hshape, Except.toOption, harray]
  split
  · rw [Option.map_map]
    rfl
  · rfl

/-- What is added is what the supplies of a circuit call for. -/
structure Additions.Supplied (registry : Registry) (c : Circuit) (a : Additions) : Prop where
  blocks : a.blocks = (c.supplies registry).map (Supply.support c)
  members : ∀ net, a.membersOf (c.nets.idxOf net) =
    (c.supplies registry).flatMap fun s => s.membersOn net

/-- The ports that are addressed to the connection of a net are those that supplies have on it. -/
theorem addressed_ports (registry : Registry) (c : Circuit) (net : String) :
    addressed ((c.supplies registry).flatMap (Supply.ports c)) (c.nets.idxOf net) =
      (c.supplies registry).flatMap fun s => s.membersOn net := by
  rw [addressed, List.filter_flatMap, List.map_flatMap]
  refine List.flatMap_congr fun s hs => ?_
  obtain ⟨hpower, hbus⟩ := Circuit.mem_nets_of_mem_supplies hs
  have hindex : ∀ other ∈ c.nets, c.nets.idxOf other = c.nets.idxOf net ↔ other = net :=
    fun other hother => List.idxOf_inj hother
  simp only [Supply.ports, Supply.membersOn, List.filter_cons, List.filter_nil, beq_iff_eq,
    hindex _ hbus, hindex _ hpower]
  split <;> split <;> simp_all

section

variable {c : Circuit} (hclosed : c.Closed)

include hclosed

private theorem block_trialAt {net : String} (huniform : c.Uniform net) (rule : BusRule) :
    (powerAt? c net rule).map (trialAt c net rule).block =
      (c.supplyAt? net rule).map (Supply.support c) := by
  rw [powerAt?_eq hclosed huniform, Option.map_map]
  refine Option.map_congr fun s hs => ?_
  obtain ⟨-, -, -, rfl, rfl⟩ := Circuit.supplyAt?_eq_some_iff.mp hs
  rfl

private theorem ports_trialAt {net : String} (huniform : c.Uniform net) (rule : BusRule) :
    (powerAt? c net rule).toList.flatMap (trialAt c net rule).ports =
      (c.supplyAt? net rule).toList.flatMap (Supply.ports c) := by
  rw [powerAt?_eq hclosed huniform]
  cases hs : c.supplyAt? net rule with
  | none => rfl
  | some s =>
    obtain ⟨-, -, -, rfl, rfl⟩ := Circuit.supplyAt?_eq_some_iff.mp hs
    rfl

variable (huniform : ∀ net ∈ c.nets, c.Uniform net)

include huniform

theorem plan_connections (registry : Registry) :
    ∃ a, plan registry c c.connections = .ok a ∧ a.Supplied registry c ∧
      (c.supplies registry = [] → a = .empty) := by
  obtain ⟨a, ha, hblocks, hmembers, hnothing⟩ :=
    plan_spec _ (adds_connections hclosed.targets registry)
  rw [trials_connections] at hblocks hmembers
  refine ⟨a, ha, ⟨?_, fun net => ?_⟩, fun hnone => hnothing ?_⟩
  · rw [hblocks, List.filterMap_flatMap, Circuit.supplies, List.map_flatMap]
    refine List.flatMap_congr fun net hnet => ?_
    rw [List.filterMap_map, List.map_filterMap]
    exact List.filterMap_congr fun rule _ => block_trialAt hclosed (huniform net hnet) rule
  · rw [hmembers, ← addressed_ports, List.flatMap_assoc, Circuit.supplies, List.flatMap_assoc]
    congr 1
    refine List.flatMap_congr fun net hnet => ?_
    rw [List.flatMap_map, List.filterMap_eq_flatMap_toList, List.flatMap_assoc]
    exact List.flatMap_congr fun rule _ => ports_trialAt hclosed (huniform net hnet) rule
  · intro t ht
    obtain ⟨net, hnet, rule, hrule, rfl⟩ := mem_trials_connections.mp ht
    change powerAt? c net rule = none
    rw [powerAt?_eq hclosed (huniform net hnet), Option.map_eq_none_iff,
      Option.eq_none_iff_forall_ne_some]
    intro s hs
    have hmem : s ∈ c.supplies registry :=
      List.mem_flatMap.mpr ⟨net, hnet, List.mem_filterMap.mpr ⟨rule, hrule, hs⟩⟩
    rw [hnone] at hmem
    cases hmem

theorem plan_eq_empty {registry : Registry} (hnone : c.supplies registry = []) :
    plan registry c c.connections = .ok .empty := by
  obtain ⟨a, ha, -, hempty⟩ := plan_connections hclosed huniform registry
  rw [ha, hempty hnone]

end

end Support

end Schematic
