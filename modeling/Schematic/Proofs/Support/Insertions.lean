import Mathlib.Algebra.BigOperators.Group.Finset.Piecewise
import Schematic.Proofs.Connection.Partition
import Schematic.Proofs.Pipeline.Forgetting
import Schematic.Proofs.Support.Supplies

namespace Schematic

/-- The first port with a name. -/
theorem Component.findPort?_eq_some_iff {c : Component} {name : String} {p : Nat} :
    c.findPort? name = some p ↔ ∃ port, c.ports[p]? = some port ∧ port.name = name ∧
      ∀ q < p, ∀ other, c.ports[q]? = some other → other.name ≠ name := by
  rw [findPort?, List.findIdx?_eq_some_iff_getElem]
  constructor
  · intro hfirst
    obtain ⟨hp, hname, hbefore⟩ := hfirst
    refine ⟨_, List.getElem?_eq_getElem hp, eq_of_beq hname, ?_⟩
    intro q hq other hother
    obtain ⟨_, rfl⟩ := List.getElem?_eq_some_iff.mp hother
    have hne := hbefore q hq
    simpa using hne
  · intro hfirst
    obtain ⟨port, hport, hname, hbefore⟩ := hfirst
    obtain ⟨hp, rfl⟩ := List.getElem?_eq_some_iff.mp hport
    refine ⟨hp, beq_iff_eq.mpr hname, ?_⟩
    intro q hq
    have hne := hbefore q hq _ (List.getElem?_eq_getElem (Nat.lt_trans hq hp))
    simpa using hne

namespace Support

/-- The port that is tried for power at a place: the first port that has the name, by its position
among the preferred ones, on the node of a member, by its position, that is a controller. -/
def Tries (c : Circuit) (rule : BusRule) (k : Connection) (place : Nat × Nat) (r : PortRef) :
    Prop :=
  ∃ m e name port, k.members[place.1]? = some m ∧ c.endpoint? m = some e ∧
    e.port.type ∈ rule.controllerTypes ∧ rule.controllerPowerPorts[place.2]? = some name ∧
    r.node = m.node ∧ e.node.ports[r.port]? = some port ∧ port.name = name ∧
    ∀ q < r.port, ∀ other, e.node.ports[q]? = some other → other.name ≠ name

/-- The first labelled port of those that are tried is in the connection at a position. -/
def PoweredBy (c : Circuit) (cs : Connections) (rule : BusRule) (k : Connection) (i : Nat) : Prop :=
  ∃ place r owner, Tries c rule k place r ∧ cs.list[i]? = some owner ∧ r ∈ owner.members ∧
    ∀ earlier s, Prod.Lex (· < ·) (· < ·) earlier place → Tries c rule k earlier s →
      ∀ l ∈ c.labels, l.target ≠ s

/-- A bus rule that is applied to a connection, both with their positions, and the position of the
connection that powers the block. -/
structure Insertion where
  connectionId : Nat
  connection : Connection
  ruleId : Nat
  rule : BusRule
  power : Nat

namespace Insertion

/-- Connections come before rules. -/
def place (x : Insertion) : Nat × Nat :=
  (x.connectionId, x.ruleId)

def block (x : Insertion) : Support where
  name := x.rule.supportStem ++ x.connection.name
  className := x.rule.supportClass
  bus := x.rule.kind
  busConnection := x.connectionId
  powerConnection := x.power

/-- The ports of the block, each with the connection that it is added to. -/
def ports (x : Insertion) : List (Nat × Member) :=
  [(x.power, ⟨x.block.name, x.rule.supportPowerPort⟩),
    (x.connectionId, ⟨x.block.name, x.rule.supportBusPort⟩)]

/-- The circuit calls for the insertion. -/
structure Fits (registry : Registry) (c : Circuit) (cs : Connections) (x : Insertion) : Prop where
  connection : cs.list[x.connectionId]? = some x.connection
  rule : registry.buses[x.ruleId]? = some x.rule
  carries : ∃ m ∈ x.connection.members, ∃ e, c.endpoint? m = some e ∧
    (e.port.type ∈ x.rule.controllerTypes ∨ e.port.type ∈ x.rule.targetTypes)
  unsupported : ∀ m ∈ x.connection.members, ∀ e, c.endpoint? m = some e →
    e.node.role ≠ .support x.rule.kind
  single : x.connection.shape c ≠ .ok .array
  powered : PoweredBy c cs x.rule x.connection x.power

end Insertion

section

variable {c : Circuit} {rule : BusRule} {net : String} {i : Nat}

theorem tries_iff {k : Connection} {place : Nat × Nat} {r : PortRef} :
    Tries c rule k place r ↔ ∃ m e name, k.members[place.1]? = some m ∧ c.endpoint? m = some e ∧
      rule.isController e.port.type = true ∧ rule.controllerPowerPorts[place.2]? = some name ∧
      r.node = m.node ∧ e.node.findPort? name = some r.port := by
  simp only [Tries, BusRule.isController, List.contains_iff_mem, Component.findPort?_eq_some_iff]
  constructor
  · intro htries
    obtain ⟨m, e, name, port, hm, he, htype, hname, hnode, hport⟩ := htries
    exact ⟨m, e, name, hm, he, htype, hname, hnode, port, hport⟩
  · intro htries
    obtain ⟨m, e, name, hm, he, htype, hname, hnode, port, hport⟩ := htries
    exact ⟨m, e, name, port, hm, he, htype, hname, hnode, hport⟩

theorem nodePowerNet?_eq_some_iff {node : Circuit.Node} {n : Nat} {power : String} :
    c.nodePowerNet? rule node n = some power ↔ ∃ (b : Nat) (name : String) (p : Nat),
      rule.controllerPowerPorts[b]? = some name ∧ node.findPort? name = some p ∧
      c.netOf? ⟨n, p⟩ = some power ∧
      ∀ b' < b, ∀ name' p', rule.controllerPowerPorts[b']? = some name' →
        node.findPort? name' = some p' → ∀ l ∈ c.labels, l.target ≠ ⟨n, p'⟩ := by
  rw [Circuit.nodePowerNet?, findSome?_eq_some_iff_first]
  simp only [Option.bind_eq_some_iff, Option.bind_eq_none_iff, Circuit.netOf?_eq_none_iff]
  constructor
  · intro hfirst
    obtain ⟨b, name, hname, ⟨p, hp, hpower⟩, hbefore⟩ := hfirst
    refine ⟨b, name, p, hname, hp, hpower, ?_⟩
    intro b' hless name' p' hname' hp'
    exact hbefore b' hless name' hname' p' hp'
  · intro hfirst
    obtain ⟨b, name, p, hname, hp, hpower, hbefore⟩ := hfirst
    refine ⟨b, name, hname, ⟨p, hp, hpower⟩, ?_⟩
    intro b' hless name' hname' p' hp'
    exact hbefore b' hless name' p' hname' hp'

theorem nodePowerNet?_eq_none_iff {node : Circuit.Node} {n : Nat} :
    c.nodePowerNet? rule node n = none ↔ ∀ name ∈ rule.controllerPowerPorts, ∀ p,
      node.findPort? name = some p → ∀ l ∈ c.labels, l.target ≠ ⟨n, p⟩ := by
  rw [Circuit.nodePowerNet?, List.findSome?_eq_none_iff]
  simp only [Option.bind_eq_none_iff, Circuit.netOf?_eq_none_iff]

/-- The net that powers a bus is the one of the first labelled port that is tried. -/
theorem powerNet?_eq_some_iff {power : String} :
    c.powerNet? rule net = some power ↔ ∃ place r, Tries c rule (c.connection net) place r ∧
      c.netOf? r = some power ∧ ∀ earlier s, Prod.Lex (· < ·) (· < ·) earlier place →
        Tries c rule (c.connection net) earlier s → ∀ l ∈ c.labels, l.target ≠ s := by
  have hstep : ∀ m, ((c.endpoint? m).bind fun e =>
      if rule.isController e.port.type then c.nodePowerNet? rule e.node m.node else none) =
        some power ↔ ∃ e, c.endpoint? m = some e ∧ rule.isController e.port.type = true ∧
          c.nodePowerNet? rule e.node m.node = some power := by
    intro m
    rw [Option.bind_eq_some_iff]
    refine exists_congr fun e => and_congr_right fun _ => ?_
    by_cases htype : rule.isController e.port.type = true
    · simp [htype]
    · simp [htype]
  rw [Circuit.powerNet?, findSome?_eq_some_iff_first]
  constructor
  · intro hfirst
    obtain ⟨a, m, hm, hfound, hbefore⟩ := hfirst
    obtain ⟨e, he, htype, hpower⟩ := (hstep m).mp hfound
    obtain ⟨b, name, p, hname, hp, hnet, hunlabelled⟩ := nodePowerNet?_eq_some_iff.mp hpower
    refine ⟨(a, b), ⟨m.node, p⟩, ?_, hnet, ?_⟩
    · exact tries_iff.mpr ⟨m, e, name, hm, he, htype, hname, rfl, hp⟩
    · intro earlier s hearlier htried
      obtain ⟨m', e', name', hm', he', htype', hname', hnode', hp'⟩ := tries_iff.mp htried
      obtain ⟨a', b'⟩ := earlier
      obtain ⟨n', p'⟩ := s
      cases hnode'
      rcases Prod.lex_def.mp hearlier with hless | ⟨hsame, hless⟩
      · have hnone := hbefore a' hless m' hm'
        rw [he', Option.bind_some, if_pos htype'] at hnone
        exact nodePowerNet?_eq_none_iff.mp hnone name' (List.mem_of_getElem? hname') p' hp'
      · cases hsame
        cases hm.symm.trans hm'
        cases he.symm.trans he'
        exact hunlabelled b' hless name' p' hname' hp'
  · intro hpowered
    obtain ⟨⟨a, b⟩, ⟨n, p⟩, htried, hnet, hearlier⟩ := hpowered
    obtain ⟨m, e, name, hm, he, htype, hname, hnode, hp⟩ := tries_iff.mp htried
    cases hnode
    refine ⟨a, m, hm, (hstep m).mpr ⟨e, he, htype, ?_⟩, ?_⟩
    · refine nodePowerNet?_eq_some_iff.mpr ⟨b, name, p, hname, hp, hnet, ?_⟩
      intro b' hless name' p' hname' hp'
      apply hearlier (a, b') ⟨m.node, p'⟩ (Prod.Lex.right a hless)
      exact tries_iff.mpr ⟨m, e, name', hm, he, htype, hname', rfl, hp'⟩
    · intro a' hless m' hm'
      cases he' : c.endpoint? m' with
      | none => rfl
      | some e' =>
        rw [Option.bind_some]
        by_cases htype' : rule.isController e'.port.type = true
        · rw [if_pos htype', nodePowerNet?_eq_none_iff]
          intro name' hname' p' hp'
          obtain ⟨b', hb'⟩ := List.getElem?_of_mem hname'
          apply hearlier (a', b') ⟨m'.node, p'⟩ (Prod.Lex.left b' b hless)
          exact tries_iff.mpr ⟨m', e', name', hm', he', htype', hb', rfl, hp'⟩
        · rw [if_neg htype']

/-- By the positions of nets. -/
theorem poweredBy_iff (hc : c.Unshared) :
    PoweredBy c c.connections rule (c.connection net) i ↔
      (c.powerNet? rule net).map c.nets.idxOf = some i := by
  have howner : ∀ r, (∃ owner, c.connections.list[i]? = some owner ∧ r ∈ owner.members) ↔
      ∃ power, c.netOf? r = some power ∧ c.nets.idxOf power = i := by
    intro r
    rw [← Option.map_eq_some_iff, ← Connections.lookup_byPort,
      (Connections.indexed_connections hc).ports]
  simp only [Option.map_eq_some_iff, powerNet?_eq_some_iff]
  constructor
  · intro hpowered
    obtain ⟨place, r, owner, htried, hat, hmem, hearlier⟩ := hpowered
    obtain ⟨power, hpower, hi⟩ := (howner r).mp ⟨owner, hat, hmem⟩
    exact ⟨power, ⟨place, r, htried, hpower, hearlier⟩, hi⟩
  · intro hpowered
    obtain ⟨power, ⟨place, r, htried, hpower, hearlier⟩, hi⟩ := hpowered
    obtain ⟨owner, hat, hmem⟩ := (howner r).mpr ⟨power, hpower, hi⟩
    exact ⟨place, r, owner, htried, hat, hmem, hearlier⟩

theorem powerAt?_eq_some_iff (hc : c.Unshared) :
    powerAt? c net rule = some i ↔
      ((∃ m ∈ (c.connection net).members, ∃ e, c.endpoint? m = some e ∧
        (e.port.type ∈ rule.controllerTypes ∨ e.port.type ∈ rule.targetTypes)) ∧
      ∀ m ∈ (c.connection net).members, ∀ e, c.endpoint? m = some e →
        e.node.role ≠ .support rule.kind) ∧
      (c.connection net).shape c ≠ .ok .array ∧
      PoweredBy c c.connections rule (c.connection net) i := by
  have hshape : (((c.connection net).shape c).toOption != some .array) = true ↔
      (c.connection net).shape c ≠ .ok .array := by
    cases (c.connection net).shape c <;> simp [Except.toOption]
  have hneeds : c.needsSupport rule net = true ↔
      (∃ m ∈ (c.connection net).members, ∃ e, c.endpoint? m = some e ∧
        (e.port.type ∈ rule.controllerTypes ∨ e.port.type ∈ rule.targetTypes)) ∧
      ∀ m ∈ (c.connection net).members, ∀ e, c.endpoint? m = some e →
        e.node.role ≠ .support rule.kind := by
    simp only [Circuit.needsSupport_iff, Circuit.mem_endpoints, BusRule.isController,
      BusRule.isTarget, List.contains_iff_mem, Circuit.connection]
    constructor
    · rintro ⟨⟨e, ⟨m, hm, he⟩, htype⟩, hroles⟩
      exact ⟨⟨m, hm, e, he, htype⟩, fun m hm e he => hroles e ⟨m, hm, he⟩⟩
    · rintro ⟨⟨m, hm, e, he, htype⟩, hroles⟩
      refine ⟨⟨e, ⟨m, hm, he⟩, htype⟩, ?_⟩
      rintro e ⟨m, hm, he⟩
      exact hroles m hm e he
  rw [powerAt?, ← hneeds, ← hshape, poweredBy_iff hc, ← and_assoc, ← Bool.and_eq_true]
  split
  next h => simp [h]
  next h => simp [h]

end

/-- What a rule at a position inserts at a net at a position, if anything. -/
def insertionAt? (c : Circuit) (entry : String × Nat) (rule : BusRule × Nat) : Option Insertion :=
  (powerAt? c entry.1 rule.1).map fun power =>
    ⟨entry.2, c.connection entry.1, rule.2, rule.1, power⟩

/-- The insertions in the order of nets and then of rules. -/
def insertions (registry : Registry) (c : Circuit) : List Insertion :=
  c.nets.zipIdx.flatMap fun entry => registry.buses.zipIdx.filterMap (insertionAt? c entry)

section

variable {registry : Registry} {c : Circuit}

theorem insertionAt?_eq_some_iff {entry : String × Nat} {rule : BusRule × Nat} {x : Insertion} :
    insertionAt? c entry rule = some x ↔
      entry.2 = x.connectionId ∧ c.connection entry.1 = x.connection ∧
        rule = (x.rule, x.ruleId) ∧ powerAt? c entry.1 x.rule = some x.power := by
  obtain ⟨net, i⟩ := entry
  obtain ⟨r, j⟩ := rule
  obtain ⟨i', k, j', r', power⟩ := x
  simp only [insertionAt?, Option.map_eq_some_iff, Insertion.mk.injEq, Prod.mk.injEq]
  constructor
  · rintro ⟨power, hpower, rfl, rfl, rfl, rfl, rfl⟩
    exact ⟨rfl, rfl, ⟨rfl, rfl⟩, hpower⟩
  · rintro ⟨rfl, rfl, ⟨rfl, rfl⟩, hpower⟩
    exact ⟨power, hpower, rfl, rfl, rfl, rfl, rfl⟩

theorem mem_insertions_iff (hc : c.Unshared) {x : Insertion} :
    x ∈ insertions registry c ↔ x.Fits registry c c.connections := by
  simp only [insertions, List.mem_flatMap, List.mem_filterMap, insertionAt?_eq_some_iff,
    powerAt?_eq_some_iff hc, List.mem_zipIdx_iff_getElem?]
  constructor
  · intro hx
    obtain ⟨entry, hentry, rule, hrule, hi, hk, rfl, hx⟩ := hx
    obtain ⟨⟨hcarries, hunsupported⟩, hsingle, hpowered⟩ := hx
    rw [hk] at hcarries hunsupported hsingle hpowered
    refine ⟨?_, hrule, hcarries, hunsupported, hsingle, hpowered⟩
    rw [← hk, ← hi, Circuit.connections, List.getElem?_map, hentry]
    rfl
  · intro hx
    obtain ⟨hnet, hk⟩ := Connections.getElem?_connections_eq_some hx.connection
    refine ⟨(x.connection.name, x.connectionId), hnet, _, hx.rule, rfl, hk.symm, rfl, ?_⟩
    rw [← hk]
    exact ⟨⟨hx.carries, hx.unsupported⟩, hx.single, hx.powered⟩

private theorem pairwise_insertions :
    ((insertions registry c).map (·.place)).Pairwise (Prod.Lex (· < ·) (· < ·)) := by
  rw [List.pairwise_map, insertions, List.pairwise_flatMap]
  constructor
  · intro entry _
    rw [List.pairwise_filterMap]
    refine (pairwise_zipIdx registry.buses).imp ?_
    intro rule other hless x hx y hy
    obtain ⟨hi, -, rfl, -⟩ := insertionAt?_eq_some_iff.mp hx
    obtain ⟨hj, -, rfl, -⟩ := insertionAt?_eq_some_iff.mp hy
    exact Prod.lex_def.mpr (.inr ⟨hi.symm.trans hj, hless⟩)
  · refine (pairwise_zipIdx c.nets).imp ?_
    intro entry other hless x hx y hy
    obtain ⟨_, -, hx⟩ := List.mem_filterMap.mp hx
    obtain ⟨_, -, hy⟩ := List.mem_filterMap.mp hy
    have hx := (insertionAt?_eq_some_iff.mp hx).1
    have hy := (insertionAt?_eq_some_iff.mp hy).1
    rw [hx, hy] at hless
    exact Prod.lex_def.mpr (.inl hless)

/-- An insertion is a trial that adds its block, if the net is at its position. -/
theorem insertionAt?_trial {entry : String × Nat} (hentry : entry ∈ c.nets.zipIdx)
    (rule : BusRule × Nat) :
    (insertionAt? c entry rule).map (·.block) =
        (powerAt? c entry.1 rule.1).map (trialAt c entry.1 rule.1).block ∧
      (insertionAt? c entry rule).toList.flatMap (·.ports) =
        (powerAt? c entry.1 rule.1).toList.flatMap (trialAt c entry.1 rule.1).ports := by
  obtain ⟨hi, hnet⟩ := List.getElem?_eq_some_iff.mp (List.mem_zipIdx_iff_getElem?.mp hentry)
  have hid : c.nets.idxOf entry.1 = entry.2 := by
    rw [← hnet]
    exact c.nodup_nets.idxOf_getElem _ hi
  unfold insertionAt?
  cases powerAt? c entry.1 rule.1 with
  | none => exact ⟨rfl, rfl⟩
  | some power =>
    simp only [Option.map_some, Insertion.block, Insertion.ports, Trial.block, Trial.ports, trialAt,
      Circuit.connection, Trial.blockName, hid, Option.toList_some, List.flatMap_singleton,
      and_self]

private theorem trials_zipIdx :
    trials registry c.connections = c.nets.zipIdx.flatMap fun entry =>
      registry.buses.zipIdx.map fun rule => trialAt c entry.1 rule.1 := by
  rw [trials_connections, flatMap_eq_flatMap_zipIdx]
  refine List.flatMap_congr fun entry _ => ?_
  conv_lhs => rw [← List.zipIdx_map_fst 0 registry.buses, List.map_map]
  rfl

private theorem plan_insertions (htargets : ∀ l ∈ c.labels, ∃ e, c.endpoint? l.target = some e) :
    ∃ a, plan registry c c.connections = .ok a ∧
      a.blocks = (insertions registry c).map (·.block) ∧
      ∀ i, a.membersOf i = addressed ((insertions registry c).flatMap (·.ports)) i := by
  obtain ⟨a, ha, hblocks, hmembers, -⟩ := plan_spec _ (adds_connections htargets registry)
  rw [trials_zipIdx] at hblocks hmembers
  refine ⟨a, ha, ?_, fun i => ?_⟩
  · rw [hblocks, insertions, List.filterMap_flatMap, List.map_flatMap]
    refine List.flatMap_congr fun entry hentry => ?_
    rw [List.filterMap_map, List.map_filterMap]
    exact List.filterMap_congr fun rule _ => (insertionAt?_trial hentry rule).1.symm
  · rw [hmembers, insertions, List.flatMap_assoc, List.flatMap_assoc]
    congr 1
    refine List.flatMap_congr fun entry hentry => ?_
    rw [List.flatMap_map, List.filterMap_eq_flatMap_toList, List.flatMap_assoc]
    exact List.flatMap_congr fun rule _ => (insertionAt?_trial hentry rule).2.symm

/-- What is addressed to one of some positions is counted there once. -/
theorem sum_length_filter {α : Type} {n : Nat} {entries : List (Nat × α)}
    (hentries : ∀ e ∈ entries, e.1 < n) :
    ∑ i ∈ Finset.range n, (entries.filter (·.1 == i)).length = entries.length := by
  induction entries with
  | nil => simp
  | cons e entries ih =>
    obtain ⟨hhead, htail⟩ := List.forall_mem_cons.mp hentries
    have hcons : ∀ i, ((e :: entries).filter (·.1 == i)).length =
        (entries.filter (·.1 == i)).length + if e.1 = i then 1 else 0 := by
      intro i
      by_cases hi : e.1 = i
      · simp [hi]
      · simp [hi]
    simp only [hcons, Finset.sum_add_distrib, ih htail, Finset.sum_ite_eq, Finset.mem_range, hhead,
      if_true, List.length_cons]

private theorem length_ports (xs : List Insertion) :
    (xs.flatMap (·.ports)).length = 2 * xs.length := by
  induction xs with
  | nil => rfl
  | cons x xs ih =>
    rw [List.flatMap_cons, List.length_append, ih, List.length_cons]
    change 2 + 2 * xs.length = _
    omega

private theorem lt_length_of_mem_ports (hc : c.Unshared) {entry : Nat × Member}
    (hentry : entry ∈ (insertions registry c).flatMap (·.ports)) :
    entry.1 < c.connections.list.length := by
  obtain ⟨x, hx, hmem⟩ := List.mem_flatMap.mp hentry
  have hfits := (mem_insertions_iff hc).mp hx
  obtain ⟨_, _, owner, -, howner, -⟩ := hfits.powered
  have hbus := (List.getElem?_eq_some_iff.mp hfits.connection).1
  have hpower := (List.getElem?_eq_some_iff.mp howner).1
  simp only [Insertion.ports, List.mem_cons, List.not_mem_nil, or_false] at hmem
  obtain rfl | rfl := hmem
  · exact hpower
  · exact hbus

/-- The support blocks of a circuit are those that its connections and the bus rules call for, one
for each, by connection and then by rule. A connection gets the ports that are addressed to it when
the two ports of each block are listed block by block, power before bus, so that every block has
two. It does not matter which shapes were asked for before. -/
theorem plan_inserts (registry : Registry) {c : Circuit} {cs : Connections}
    (htargets : ∀ l ∈ c.labels, ∃ e, c.endpoint? l.target = some e)
    (hcs : Connections.ofCircuit c = .ok cs) :
    ∃ a, plan registry c cs = .ok a ∧
      (∃ xs : List Insertion,
        (xs.map (·.place)).Pairwise (Prod.Lex (· < ·) (· < ·)) ∧
        (∀ x, x ∈ xs ↔ x.Fits registry c cs) ∧
        a.blocks = xs.map (·.block) ∧
        ∀ i, a.membersOf i = ((xs.flatMap (·.ports)).filter (·.1 == i)).map (·.2)) ∧
      ∑ i ∈ Finset.range cs.list.length, (a.membersOf i).length = 2 * a.blocks.length ∧
      ∀ asked, plan registry c (cs.remember c asked) = .ok a := by
  obtain ⟨hshared, rfl⟩ := Connections.ofCircuit_eq_ok_iff.mp hcs
  obtain ⟨a, ha, hblocks, hmembers⟩ := plan_insertions htargets
  refine ⟨a, ha, ⟨insertions registry c, pairwise_insertions, ?_, hblocks, hmembers⟩, ?_, ?_⟩
  · exact fun x => mem_insertions_iff hshared
  · simp only [hmembers, addressed, List.length_map]
    rw [sum_length_filter fun entry => lt_length_of_mem_ports hshared, length_ports, hblocks,
      List.length_map]
  · intro asked
    have hfaithful := Connections.faithful_connections c
    rw [← plan_forget (hfaithful.remember asked), Connections.forget_remember,
      plan_forget hfaithful, ha]

end

/-- Two controllers. The first is powered through its second choice, for want of a label on the
first, and the second has its bus and its power on one connection. -/
def twoControllers : Circuit where
  nodes := [
    { id := "m"
      name := "mcu"
      type := "Mcu"
      superClasses := []
      ports := [⟨"i2c", "I2cController", false, none⟩, ⟨"pwr", "VoltageSink", false, none⟩,
        ⟨"pwr_out", "VoltageSource", false, none⟩]
      arguments := []
      role := .plain },
    { id := "h"
      name := "hub"
      type := "SensorHub"
      superClasses := []
      ports := [⟨"i2c", "I2cController", false, none⟩, ⟨"pwr", "VoltageSink", false, none⟩]
      arguments := []
      role := .plain }]
  labels := [⟨"1", "bus", ⟨0, 0⟩⟩, ⟨"2", "v", ⟨0, 2⟩⟩, ⟨"3", "all", ⟨1, 0⟩⟩, ⟨"4", "all", ⟨1, 1⟩⟩]

theorem plan_inserts_twoControllers :
    ∃ (cs : Connections) (a : Additions) (xs : List Insertion),
      Connections.ofCircuit twoControllers = .ok cs ∧ plan .builtin twoControllers cs = .ok a ∧
      (∀ x, x ∈ xs ↔ x.Fits .builtin twoControllers cs) ∧
      xs.map (·.block) = [⟨"_implicit_i2c_pullup_bus", "I2cPullup", .i2c, 0, 1⟩,
        ⟨"_implicit_i2c_pullup_all", "I2cPullup", .i2c, 2, 2⟩] ∧
      a.members = [[⟨"_implicit_i2c_pullup_bus", "i2c"⟩], [⟨"_implicit_i2c_pullup_bus", "pwr"⟩],
        [⟨"_implicit_i2c_pullup_all", "pwr"⟩, ⟨"_implicit_i2c_pullup_all", "i2c"⟩]] := by
  have htargets : ∀ l ∈ twoControllers.labels, ∃ e, twoControllers.endpoint? l.target = some e := by
    simp only [← Option.isSome_iff_exists]
    decide
  have hcs : Connections.ofCircuit twoControllers = .ok twoControllers.connections :=
    Connections.ofCircuit_eq_ok_iff.mpr ⟨by unfold Circuit.Unshared; decide, rfl⟩
  have hplan : plan .builtin twoControllers twoControllers.connections = .ok ⟨
      [⟨"_implicit_i2c_pullup_bus", "I2cPullup", .i2c, 0, 1⟩,
        ⟨"_implicit_i2c_pullup_all", "I2cPullup", .i2c, 2, 2⟩],
      [[⟨"_implicit_i2c_pullup_bus", "i2c"⟩], [⟨"_implicit_i2c_pullup_bus", "pwr"⟩],
        [⟨"_implicit_i2c_pullup_all", "pwr"⟩, ⟨"_implicit_i2c_pullup_all", "i2c"⟩]]⟩ :=
    eq_ok_of_toOption_eq_some (by decide +kernel)
  obtain ⟨a, ha, ⟨xs, -, hfits, hblocks, -⟩, -⟩ := plan_inserts .builtin htargets hcs
  cases hplan.symm.trans ha
  exact ⟨_, _, xs, hcs, hplan, hfits, hblocks.symm, rfl⟩

end Support

end Schematic
