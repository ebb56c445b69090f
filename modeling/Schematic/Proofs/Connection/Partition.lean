import Schematic.Proofs.Connection.Uniform

namespace Schematic

/-- Two labels stand on one port, and up to the later one no others do. -/
def Circuit.Repeats (c : Circuit) (first again : Circuit.Label) : Prop :=
  ∃ before after, c.labels = before ++ again :: after ∧ (before.map (·.target)).Nodup ∧
    first ∈ before ∧ first.target = again.target

namespace Connections

/-- The list of the connections and the two indices agree. -/
structure Indexed (cs : Connections) : Prop where
  /-- The id of a connection is its position. -/
  ids : ∀ (i : Nat) (k : Connection), cs.list[i]? = some k → k.id = i
  /-- A name leads to the connection that has it. -/
  names : ∀ name (i : Nat),
    cs.byName.lookup name = some i ↔ ∃ k, cs.list[i]? = some k ∧ k.name = name
  /-- A port leads to the connection that it is a member of. -/
  ports : ∀ r (i : Nat),
    cs.byPort.lookup r = some i ↔ ∃ k, cs.list[i]? = some k ∧ r ∈ k.members

/-- The connections are the labelled ports of a circuit, each under the name of its label. -/
structure Partition (c : Circuit) (cs : Connections) : Prop where
  /-- There is one connection for each name, in the order of first labels. -/
  names : cs.list.map (·.name) = c.nets
  /-- A connection has the ports under its name, in label order. -/
  members : ∀ k ∈ cs.list, k.members = c.wired k.name
  /-- No shape was asked for. -/
  unknown : ∀ k ∈ cs.list, k.known = none
  indexed : cs.Indexed
  /-- Each id below the number of connections has its connection. -/
  ids : ∀ i < cs.list.length, ∃ k, cs.get i = .ok k ∧ k.id = i
  /-- A name that some label has is found. -/
  named : ∀ name, (∃ k i, cs.find? name = .ok (some (k, i))) ↔ ∃ l ∈ c.labels, l.name = name
  /-- No other name is. -/
  unnamed : ∀ name, (∀ l ∈ c.labels, l.name ≠ name) → cs.find? name = .ok none
  /-- What is found by a name has it. -/
  found : ∀ name k i, cs.find? name = .ok (some (k, i)) ↔ cs.list[i]? = some k ∧ k.name = name
  /-- A connection owns its members. -/
  owner : ∀ r k i, cs.owner? r = .ok (some (k, i)) ↔ cs.list[i]? = some k ∧ r ∈ k.members
  /-- A labelled port is in one connection. -/
  owned : ∀ l ∈ c.labels, ∃! entry : Connection × Nat,
    cs.list[entry.2]? = some entry.1 ∧ l.target ∈ entry.1.members
  /-- Any other port is in none. -/
  unowned : ∀ r, (∀ l ∈ c.labels, l.target ≠ r) →
    cs.owner? r = .ok none ∧ ∀ k ∈ cs.list, r ∉ k.members

theorem follow_eq_some_iff {cs : Connections} {found : Option Nat} {k : Connection} {i : Nat} :
    cs.follow found = .ok (some (k, i)) ↔ found = some i ∧ cs.list[i]? = some k := by
  cases found with
  | none => simp [follow]
  | some j =>
    simp only [follow, bind_eq_ok_iff, get_eq_ok_iff, pure_eq_ok_iff, Option.some.injEq,
      Prod.mk.injEq]
    constructor
    · rintro ⟨_, hk, rfl, rfl⟩
      exact ⟨rfl, hk⟩
    · rintro ⟨rfl, hk⟩
      exact ⟨k, hk, rfl, rfl⟩

theorem Indexed.find?_eq_some_iff {cs : Connections} (hcs : cs.Indexed) {name : String}
    {k : Connection} {i : Nat} :
    cs.find? name = .ok (some (k, i)) ↔ cs.list[i]? = some k ∧ k.name = name := by
  rw [find?, follow_eq_some_iff, hcs.names]
  constructor
  · rintro ⟨⟨k', hk', rfl⟩, hk⟩
    exact ⟨hk, congrArg (·.name) (Option.some.inj (hk.symm.trans hk'))⟩
  · rintro ⟨hk, rfl⟩
    exact ⟨⟨k, hk, rfl⟩, hk⟩

theorem Indexed.owner?_eq_some_iff {cs : Connections} (hcs : cs.Indexed) {r : PortRef}
    {k : Connection} {i : Nat} :
    cs.owner? r = .ok (some (k, i)) ↔ cs.list[i]? = some k ∧ r ∈ k.members := by
  rw [owner?, follow_eq_some_iff, hcs.ports]
  constructor
  · rintro ⟨⟨k', hk', hr⟩, hk⟩
    rw [Option.some.inj (hk.symm.trans hk')]
    exact ⟨hk', hr⟩
  · rintro ⟨hk, hr⟩
    exact ⟨⟨k, hk, hr⟩, hk⟩

/-- The names and the ports of indexed connections lead to connections. -/
theorem Indexed.find?_eq {cs : Connections} (hcs : cs.Indexed) (name : String) :
    ∃ found, cs.find? name = .ok found ∧ found.map (·.2) = cs.byName.lookup name := by
  rw [find?]
  cases hlookup : cs.byName.lookup name with
  | none => exact ⟨none, rfl, rfl⟩
  | some i =>
    obtain ⟨k, hk, -⟩ := (hcs.names name i).mp hlookup
    exact ⟨some (k, i), follow_eq_some_iff.mpr ⟨rfl, hk⟩, rfl⟩

theorem Indexed.exists_owner? {cs : Connections} (hcs : cs.Indexed) (r : PortRef) :
    ∃ found, cs.owner? r = .ok found := by
  rw [owner?]
  cases hlookup : cs.byPort.lookup r with
  | none => exact ⟨none, rfl⟩
  | some i =>
    obtain ⟨k, hk, -⟩ := (hcs.ports r i).mp hlookup
    exact ⟨some (k, i), follow_eq_some_iff.mpr ⟨rfl, hk⟩⟩

/-- Connections of distinct names are indexed if their ports are. -/
theorem indexed_of_nets {nets : List String} (hnets : nets.Nodup) {members : String → List PortRef}
    {byPort : List (PortRef × Nat)}
    (hports : ∀ r i, byPort.lookup r = some i ↔
      ∃ net ∈ nets, nets.idxOf net = i ∧ r ∈ members net) :
    Indexed
      ⟨nets.map fun net => ⟨nets.idxOf net, net, members net, none⟩, nets.zipIdx, byPort⟩ := by
  have hat : ∀ i k, (nets.map fun net => (⟨nets.idxOf net, net, members net, none⟩ :
      Connection))[i]? = some k ↔
        ∃ net ∈ nets, nets.idxOf net = i ∧ ⟨nets.idxOf net, net, members net, none⟩ = k := by
    intro i k
    rw [List.getElem?_map, Option.map_eq_some_iff]
    constructor
    · rintro ⟨net, hnet, rfl⟩
      obtain ⟨hi, rfl⟩ := List.getElem?_eq_some_iff.mp hnet
      exact ⟨_, List.getElem_mem hi, hnets.idxOf_getElem i hi, rfl⟩
    · rintro ⟨net, hnet, rfl, rfl⟩
      exact ⟨net, List.getElem?_idxOf hnet, rfl⟩
  constructor
  case ids =>
    intro i k hk
    obtain ⟨net, -, rfl, rfl⟩ := (hat i k).mp hk
    rfl
  case names =>
    intro name i
    simp only [lookup_zipIdx, hat, Option.ite_none_right_eq_some, Option.some.injEq]
    constructor
    · rintro ⟨hname, rfl⟩
      exact ⟨_, ⟨name, hname, rfl, rfl⟩, rfl⟩
    · rintro ⟨_, ⟨net, hnet, rfl, rfl⟩, rfl⟩
      exact ⟨hnet, rfl⟩
  case ports =>
    intro r i
    simp only [hat, hports]
    constructor
    · rintro ⟨net, hnet, rfl, hr⟩
      exact ⟨_, ⟨net, hnet, rfl, rfl⟩, hr⟩
    · rintro ⟨_, ⟨net, hnet, rfl, rfl⟩, hr⟩
      exact ⟨net, hnet, rfl, hr⟩

section

variable {c : Circuit}

theorem indexed_connections (hc : c.Unshared) : c.connections.Indexed := by
  refine indexed_of_nets c.nodup_nets fun r i => ?_
  change c.connections.byPort.lookup r = some i ↔ _
  simp only [lookup_byPort, Option.map_eq_some_iff, ← hc.netOf?_eq_some_iff]
  constructor
  · rintro ⟨net, hnet, rfl⟩
    exact ⟨net, Circuit.mem_nets_of_netOf? hnet, rfl, hnet⟩
  · rintro ⟨net, -, rfl, hnet⟩
    exact ⟨net, hnet, rfl⟩

/-- The indices agree also between the two halves of taking in a label. -/
theorem indexed_opened {nodes : List Circuit.Node} {ls : List Circuit.Label}
    (hls : (ls.map (·.target)).Nodup) (l : Circuit.Label) : (opened nodes ls l).Indexed := by
  have hc : (Circuit.mk nodes ls).Unshared := hls
  refine indexed_of_nets (Circuit.nodup_nets _) fun r i => ?_
  simp only [lookup_byPort, Option.map_eq_some_iff, ← hc.netOf?_eq_some_iff]
  constructor
  · rintro ⟨net, hnet, rfl⟩
    have hmem := Circuit.mem_nets_of_netOf? hnet
    exact ⟨net, Circuit.mem_nets_append hmem [l], Circuit.idxOf_nets_append hmem [l], hnet⟩
  · rintro ⟨net, -, rfl, hnet⟩
    exact ⟨net, hnet, (Circuit.idxOf_nets_append (Circuit.mem_nets_of_netOf? hnet) [l]).symm⟩

/-- The connection for the name of a label is there before its port is. -/
theorem find?_opened {nodes : List Circuit.Node} {ls : List Circuit.Label}
    (hls : (ls.map (·.target)).Nodup) (l : Circuit.Label) :
    ∃ k, (opened nodes ls l).find? l.name =
        .ok (some (k, (Circuit.mk nodes (ls ++ [l])).nets.idxOf l.name)) ∧
      k.members = (Circuit.mk nodes ls).wired l.name := by
  have hget := get_opened nodes ls l (Circuit.mem_nets_append_self nodes ls l)
  exact ⟨_, (indexed_opened hls l).find?_eq_some_iff.mpr ⟨get_eq_ok_iff.mp hget, rfl⟩, rfl⟩

theorem getElem?_connections_eq_some {i : Nat} {k : Connection}
    (hk : c.connections.list[i]? = some k) :
    c.nets[i]? = some k.name ∧ k = c.connection k.name := by
  rw [Circuit.connections, List.getElem?_map, Option.map_eq_some_iff] at hk
  obtain ⟨net, hnet, rfl⟩ := hk
  exact ⟨hnet, rfl⟩

theorem partition_connections (hc : c.Unshared) : c.connections.Partition c := by
  have hindexed := indexed_connections hc
  have hconnection : ∀ k ∈ c.connections.list, k = c.connection k.name := by
    intro k hk
    obtain ⟨net, -, rfl⟩ := List.mem_map.mp hk
    rfl
  constructor
  case names =>
    rw [Circuit.connections, List.map_map]
    exact List.map_id c.nets
  case members =>
    intro k hk
    rw [hconnection k hk]
    rfl
  case unknown =>
    intro k hk
    rw [hconnection k hk]
    rfl
  case indexed => exact hindexed
  case ids =>
    intro i hi
    have hat := List.getElem?_eq_getElem hi
    exact ⟨_, get_of_getElem? hat, hindexed.ids i _ hat⟩
  case named =>
    intro name
    simp only [hindexed.find?_eq_some_iff, ← Circuit.mem_nets]
    constructor
    · rintro ⟨k, i, hk, rfl⟩
      exact List.mem_of_getElem? (getElem?_connections_eq_some hk).1
    · intro hname
      exact ⟨c.connection name, c.nets.idxOf name, getElem?_connections hname, rfl⟩
  case unnamed =>
    intro name hname
    have hnet : name ∉ c.nets := by
      rintro hnet
      obtain ⟨l, hl, rfl⟩ := Circuit.mem_nets.mp hnet
      exact hname l hl rfl
    rw [find?_connections, if_neg hnet]
  case found => exact fun name k i => hindexed.find?_eq_some_iff
  case owner => exact fun r k i => hindexed.owner?_eq_some_iff
  case owned =>
    intro l hl
    have howner := owner?_connections c l.target
    rw [hc.netOf?_target hl, Option.map_some] at howner
    refine ⟨(c.connection l.name, c.nets.idxOf l.name), hindexed.owner?_eq_some_iff.mp howner, ?_⟩
    intro entry hentry
    have hother := hindexed.owner?_eq_some_iff.mpr hentry
    rw [howner, Except.ok.injEq, Option.some.injEq] at hother
    exact hother.symm
  case unowned =>
    intro r hr
    rw [owner?_connections, Circuit.netOf?_eq_none_iff.mpr hr]
    refine ⟨rfl, fun k hk hmem => ?_⟩
    rw [hconnection k hk] at hmem
    obtain ⟨l, hl, -, htarget⟩ := Circuit.mem_wired.mp hmem
    exact hr l hl htarget

/-- A label is refused if it stands on the port of an earlier one, and that label is told. -/
theorem addLabel_eq_error_iff {circuit : Circuit} {nodes : List Circuit.Node}
    {before : List Circuit.Label} (hbefore : (before.map (·.target)).Nodup) {l : Circuit.Label}
    {e : Endpoint} (he : circuit.endpoint? l.target = some e) {f : Fault} :
    addLabel circuit (Circuit.mk nodes before).connections l = .error f ↔
      ∃ m ∈ before, m.target = l.target ∧
        f = .duplicateLabel e.node.name e.port.name m.name l.name := by
  have hshared : (Circuit.mk nodes before).Unshared := hbefore
  rw [addLabel_connections, Circuit.endpoint_eq_ok_iff.mpr he]
  constructor
  · intro hf
    cases hnet : (Circuit.mk nodes before).netOf? l.target with
    | none =>
      rw [hnet] at hf
      cases hf
    | some net =>
      rw [hnet] at hf
      obtain ⟨m, hm, rfl, htarget⟩ := Circuit.mem_wired.mp (Circuit.mem_wired_of_netOf? hnet)
      cases hf
      exact ⟨m, hm, htarget, rfl⟩
  · intro hclaimed
    obtain ⟨m, hm, htarget, rfl⟩ := hclaimed
    rw [← htarget, hshared.netOf?_target hm]
    rfl

/-- Gathering fails at the first label that repeats a port. -/
theorem ofCircuit_eq_error_iff (hc : c.Closed) {f : Fault} :
    ofCircuit c = .error f ↔ ∃ first again e, c.Repeats first again ∧
      c.endpoint? again.target = some e ∧
      f = .duplicateLabel e.node.name e.port.name first.name again.name := by
  constructor
  · intro hf
    obtain ⟨before, again, after, cs, hlabels, hcs, hagain⟩ := exists_of_foldlM_eq_error hf
    obtain ⟨hnodup, rfl⟩ := (foldlM_addLabel_eq_ok_iff c.nodes [] before List.nodup_nil cs).mp hcs
    have hmem : again ∈ c.labels := hlabels ▸ List.mem_append_right before List.mem_cons_self
    obtain ⟨e, he⟩ := hc.targets again hmem
    obtain ⟨first, hfirst, htarget, rfl⟩ := (addLabel_eq_error_iff hnodup he).mp hagain
    exact ⟨first, again, e, ⟨before, after, hlabels, hnodup, hfirst, htarget⟩, he, rfl⟩
  · intro hrepeats
    obtain ⟨first, again, e, ⟨before, after, hlabels, hnodup, hfirst, htarget⟩, he, rfl⟩ := hrepeats
    have hbefore : before.foldlM (addLabel c) (Circuit.mk c.nodes []).connections =
        .ok (Circuit.mk c.nodes before).connections :=
      (foldlM_addLabel_eq_ok_iff c.nodes [] before List.nodup_nil _).mpr ⟨hnodup, rfl⟩
    have hagain : addLabel c (Circuit.mk c.nodes before).connections again =
        .error (.duplicateLabel e.node.name e.port.name first.name again.name) :=
      (addLabel_eq_error_iff hnodup he).mpr ⟨first, hfirst, htarget, rfl⟩
    rw [ofCircuit, hlabels]
    exact foldlM_eq_error_of_split hbefore hagain

end

/-- The labels of a circuit are gathered if they all stand on different ports, and their ports are
then partitioned by name. This is so for the labels before any other, and the list and the indices
agree also with the connection that is made for the name of the next label while its port is looked
up. The first label that repeats a port is reported, with the port and the label that claimed it
before. -/
theorem ofCircuit_partitions {registry : Registry} {n : Netlist} {c : Circuit}
    (hc : Circuit.ofNetlist registry n = .ok c) :
    ((∃ cs, ofCircuit c = .ok cs) ↔ c.labels.Pairwise fun l m => l.target ≠ m.target) ∧
    (∀ cs, ofCircuit c = .ok cs → cs.Partition c) ∧
    (∀ before l after, c.labels = before ++ l :: after →
      (before.Pairwise fun l m => l.target ≠ m.target) →
        ∃ cs, before.foldlM (addLabel c) empty = .ok cs ∧
          cs.Partition { c with labels := before } ∧ (cs.ensure l.name).1.Indexed ∧
          ∃ k, (cs.ensure l.name).1.find? l.name = .ok (some (k, (cs.ensure l.name).2)) ∧
            k.members = ({ c with labels := before } : Circuit).wired l.name) ∧
    ∀ f, ofCircuit c = .error f ↔ ∃ first again e, c.Repeats first again ∧
      c.endpoint? again.target = some e ∧
      f = .duplicateLabel e.node.name e.port.name first.name again.name ∧
      f.problem = .internal ("duplicate label: port " ++ e.node.name ++ "." ++ e.port.name ++
        " is claimed by '" ++ first.name ++ "' and '" ++ again.name ++ "'") := by
  obtain ⟨hn, rfl⟩ := Circuit.ofNetlist_eq_ok_iff.mp hc
  refine ⟨?_, ?_, ?_, fun f => ?_⟩
  · rw [← List.pairwise_map]
    constructor
    · rintro ⟨cs, hcs⟩
      exact (ofCircuit_eq_ok_iff.mp hcs).1
    · intro hdistinct
      exact ⟨_, ofCircuit_eq_ok_iff.mpr ⟨hdistinct, rfl⟩⟩
  · intro cs hcs
    obtain ⟨hshared, rfl⟩ := ofCircuit_eq_ok_iff.mp hcs
    exact partition_connections hshared
  · intro before l after _ hdistinct
    have hnodup : (before.map (·.target)).Nodup := List.pairwise_map.mpr hdistinct
    refine ⟨_, (foldlM_addLabel_eq_ok_iff (n.circuit registry).nodes [] before List.nodup_nil
      _).mpr ⟨hnodup, rfl⟩, partition_connections hnodup, ?_⟩
    rw [List.nil_append, ensure_connections]
    exact ⟨indexed_opened hnodup l, find?_opened hnodup l⟩
  · rw [ofCircuit_eq_error_iff (hn.closed registry)]
    constructor
    · rintro ⟨first, again, e, hfirst, he, rfl⟩
      exact ⟨first, again, e, hfirst, he, rfl, rfl⟩
    · rintro ⟨first, again, e, hfirst, he, hf, -⟩
      exact ⟨first, again, e, hfirst, he, hf⟩

/-- A switch and a lamp, with labels that are given. -/
def switchBoard (labels : List (String × Netlist.Label)) : Netlist where
  nodes := [
    ("s", {
      id := "s"
      name := "switch"
      type := "DigitalSwitch"
      superClasses := []
      ports := [⟨"out", "DigitalSource", false, none⟩, ⟨"gnd", "Ground", false, none⟩]
      arguments := [] }),
    ("l", {
      id := "l"
      name := "lamp"
      type := "IndicatorLed"
      superClasses := []
      ports := [⟨"signal", "DigitalSink", false, none⟩, ⟨"gnd", "Ground", false, none⟩]
      arguments := [] })]
  labels

/-- Labels of two names in turn. -/
def alternating : List (String × Netlist.Label) :=
  [("1", ⟨"on", "l", 0⟩), ("2", ⟨"gnd", "s", 1⟩), ("3", ⟨"on", "s", 0⟩), ("4", ⟨"gnd", "l", 1⟩)]

/-- Labels of a second name on the ports that the first has. -/
def repeating : List (String × Netlist.Label) :=
  [("1", ⟨"on", "l", 0⟩), ("2", ⟨"on", "s", 0⟩), ("3", ⟨"off", "s", 0⟩), ("4", ⟨"off", "l", 0⟩)]

theorem ofCircuit_partitions_switchBoard :
    (∃ c cs, Circuit.ofNetlist .builtin (switchBoard alternating) = .ok c ∧ ofCircuit c = .ok cs ∧
      cs.Partition c ∧
      cs = {
        list := [⟨0, "on", [⟨1, 0⟩, ⟨0, 0⟩], none⟩, ⟨1, "gnd", [⟨0, 1⟩, ⟨1, 1⟩], none⟩]
        byName := [("on", 0), ("gnd", 1)]
        byPort := [(⟨1, 0⟩, 0), (⟨0, 1⟩, 1), (⟨0, 0⟩, 0), (⟨1, 1⟩, 1)] }) ∧
    ∃ c cs, Circuit.ofNetlist .builtin (switchBoard repeating) = .ok c ∧
      (c.labels.take 2).foldlM (addLabel c) empty = .ok cs ∧ cs.list.length = 1 ∧
      (cs.ensure "off").1.Indexed ∧ (cs.ensure "off").1.list.length = 2 ∧
      ofCircuit c = .error (.duplicateLabel "switch" "out" "on" "off") := by
  constructor
  · have hc : Circuit.ofNetlist .builtin (switchBoard alternating) =
        .ok ((switchBoard alternating).circuit .builtin) := rfl
    obtain ⟨cs, hcs⟩ := (ofCircuit_partitions hc).1.mpr (by decide)
    obtain ⟨-, rfl⟩ := ofCircuit_eq_ok_iff.mp hcs
    exact ⟨_, _, hc, hcs, (ofCircuit_partitions hc).2.1 _ hcs, by decide⟩
  · have hc : Circuit.ofNetlist .builtin (switchBoard repeating) =
        .ok ((switchBoard repeating).circuit .builtin) := rfl
    obtain ⟨-, -, hsteps, herror⟩ := ofCircuit_partitions hc
    obtain ⟨cs, hcs, -, hindexed, -⟩ := hsteps (((switchBoard repeating).circuit
      .builtin).labels.take 2) ⟨"3", "off", ⟨0, 0⟩⟩ [⟨"4", "off", ⟨1, 0⟩⟩] rfl (by decide)
    obtain ⟨-, rfl⟩ :=
      (foldlM_addLabel_eq_ok_iff ((switchBoard repeating).circuit .builtin).nodes []
      _ List.nodup_nil cs).mp hcs
    refine ⟨_, _, hc, hcs, by decide, hindexed, by decide, (herror _).mpr ?_⟩
    have hrepeats : ((switchBoard repeating).circuit .builtin).Repeats ⟨"2", "on", ⟨0, 0⟩⟩
        ⟨"3", "off", ⟨0, 0⟩⟩ :=
      ⟨[⟨"1", "on", ⟨1, 0⟩⟩, ⟨"2", "on", ⟨0, 0⟩⟩], [⟨"4", "off", ⟨1, 0⟩⟩], rfl, by decide,
        List.mem_cons_of_mem _ List.mem_cons_self, rfl⟩
    exact ⟨_, _, _, hrepeats, rfl, rfl, rfl⟩

end Connections

end Schematic
