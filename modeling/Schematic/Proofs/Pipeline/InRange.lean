import Schematic.Command.Run
import Schematic.Proofs.Pipeline.Stages
import Schematic.Proofs.Pipeline.Visits

namespace Schematic

namespace Fault

/-- The fault is not about a position that leads nowhere. -/
def Located (f : Fault) : Prop :=
  f.isLost = false

theorem ReportedBy.located {f : Fault} {pass : Pass} (hf : f.ReportedBy pass) : f.Located := by
  cases f with
  | dangling | lostConnection => cases hf
  | _ => rfl

private theorem problem_ne_format (f : Fault) : f.problem ≠ .format := by
  cases f <;> rintro ⟨⟩

/-- A lost position is told in words that no pass has for a fault of the netlist. -/
theorem ReportedBy.problem_ne {f lost : Fault} {pass : Pass} (hf : f.ReportedBy pass)
    (hlost : lost.isLost = true) : f.problem ≠ lost.problem := by
  have htold : ∃ detail, lost.problem = .internal detail ∧ detail.toList.head? = some 'n' := by
    cases lost with
    | dangling node port => exact ⟨_, rfl, by simp⟩
    | lostConnection id => exact ⟨_, rfl, by simp⟩
    | _ => cases hlost
  obtain ⟨detail, hdetail, hhead⟩ := htold
  intro hsame
  obtain ⟨-, node, port, owner, label, rfl⟩ := hf.eq_duplicateLabel (hsame.trans hdetail)
  cases hsame.trans hdetail
  simp at hhead

end Fault

theorem FailsOnly.located {α : Type} {pass : Pass} {x : Except Fault α}
    (hx : FailsOnly (Fault.ReportedBy pass) x) : FailsOnly Fault.Located x :=
  fun f hf => (hx f hf).located

namespace Circuit

/-- Labels stand on ports, and a slot belongs to another port of its node, which is no slot. -/
structure Indexed (c : Circuit) : Prop where
  targets : ∀ l ∈ c.labels, ∃ node port,
    c.nodes[l.target.node]? = some node ∧ node.ports[l.target.port]? = some port
  parents : ∀ node ∈ c.nodes, ∀ (i : Nat) (port : Port) (k : Nat),
    node.ports[i]? = some port → port.slotOf = some k →
      k ≠ i ∧ ∃ parent, node.ports[k]? = some parent ∧ parent.slotOf = none

variable {c : Circuit}

theorem Closed.indexed (hc : c.Closed) : c.Indexed := by
  constructor
  · intro l hl
    obtain ⟨e, he⟩ := hc.targets l hl
    obtain ⟨hnode, hport⟩ := endpoint?_eq_some_iff.mp he
    exact ⟨e.node, e.port, hnode, hport⟩
  · intro node hnode i port k hport hslot
    obtain ⟨parent, hparent, hsolid⟩ :=
      hc.slots node hnode port (List.mem_of_getElem? hport) k hslot
    refine ⟨?_, parent, hparent, hsolid⟩
    rintro rfl
    rw [hport, Option.some.injEq] at hparent
    rw [hparent, hsolid] at hslot
    cases hslot

theorem Closed.exists_portLine (hc : c.Closed) {node : Node} {n : Nat}
    (hnode : c.nodes[n]? = some node) {entry : Port × Nat} (hentry : entry ∈ node.ports.zipIdx) :
    ∃ text, c.portLine n entry = .ok text := by
  rw [portLine]
  cases hslot : entry.1.slotOf with
  | none => exact ⟨_, rfl⟩
  | some k =>
    obtain ⟨parent, hparent, -⟩ := hc.slots node (List.mem_of_getElem? hnode) entry.1
      (List.fst_mem_of_mem_zipIdx hentry) k hslot
    have hend : c.endpoint ⟨n, k⟩ = .ok ⟨node, parent⟩ :=
      endpoint_eq_ok_iff.mpr (endpoint?_eq_some_iff.mpr ⟨hnode, hparent⟩)
    rw [slotText, hend]
    exact ⟨_, rfl⟩

theorem Closed.exists_listing (hc : c.Closed) : ∃ text, c.listing = .ok text := by
  have hnodes : ∀ entry ∈ c.nodes.zipIdx, ∃ text, c.nodeLines entry = .ok text := by
    intro entry hentry
    obtain ⟨lines, hlines⟩ := exists_mapM_eq_ok fun port hport =>
      hc.exists_portLine (List.mem_zipIdx_iff_getElem?.mp hentry) hport
    rw [nodeLines, hlines]
    exact ⟨_, rfl⟩
  have hlabels : ∀ l ∈ c.labels, ∃ text, c.labelLine l = .ok text := by
    intro l hl
    obtain ⟨e, he⟩ := hc.targets l hl
    rw [labelLine, endpoint_eq_ok_iff.mpr he]
    exact ⟨_, rfl⟩
  obtain ⟨nodes, hnodes⟩ := exists_mapM_eq_ok hnodes
  obtain ⟨labels, hlabels⟩ := exists_mapM_eq_ok hlabels
  rw [listing, hnodes, hlabels]
  exact ⟨_, rfl⟩

end Circuit

theorem Connection.shape_located {circuit : Circuit} {k : Connection}
    (hk : ∀ m ∈ k.members, ∃ e, circuit.endpoint? m = some e) :
    FailsOnly Fault.Located (k.shape circuit) := by
  cases hknown : k.known with
  | some s =>
    rw [shape_of_known hknown]
    exact failsOnly_ok s
  | none =>
    rw [shape_of_unknown hknown]
    exact fun f hf => isLost_of_shapeIn_eq_error hk hf

namespace Connections

/-- All members are ports of the circuit. -/
def Closed (circuit : Circuit) (cs : Connections) : Prop :=
  ∀ k ∈ cs.list, ∀ m ∈ k.members, ∃ e, circuit.endpoint? m = some e

variable {c : Circuit} (hc : c.Closed)

include hc

private theorem closed_connections : c.connections.Closed c := by
  intro k hk m hm
  obtain ⟨net, -, rfl⟩ := List.mem_map.mp hk
  exact hc.exists_endpoint hm

private theorem answers_located {net : String} (hnet : net ∈ c.nets) :
    FailsOnly Fault.Located (c.connections.answers c (c.nets.idxOf net)) := by
  rw [answers_of_getElem? (getElem?_connections hnet)]
  exact Connection.shape_located fun m hm => hc.exists_endpoint hm

private theorem exists_listing : ∃ text, c.connections.listing c = .ok text := by
  have hlines : ∀ e ∈ c.connections.list.zipIdx, ∃ text,
      (describingLine c e).result (c.connections.answers c) = .ok text := by
    intro e he
    have hmembers := Circuit.mapM_endpoint
      (closed_connections hc e.1 (List.fst_mem_of_mem_zipIdx he))
    have hok : ((describingLine c e).result (c.connections.answers c)).isOk =
        (e.1.members.mapM c.endpoint).isOk := isOk_result_describingLine he
    rw [hmembers] at hok
    cases hline : (describingLine c e).result (c.connections.answers c) with
    | ok text => exact ⟨text, rfl⟩
    | error f =>
      rw [hline] at hok
      cases hok
  obtain ⟨lines, hlines⟩ := exists_mapM_eq_ok hlines
  rw [listing, Inquiry.result_run, describing, Inquiry.result_bind, Inquiry.result_mapM, hlines]
  exact ⟨_, rfl⟩

end Connections

theorem Wrapper.wrapAll_located {c : Circuit} (hc : c.Closed) (registry : Registry) :
    FailsOnly Fault.Located (wrapAll registry c c.connections) := by
  rw [wrapAll_eq]
  refine failsOnly_mapM fun entry _ => ?_
  rw [sitesOf_connections, ok_bind]
  refine (failsOnly_mapM fun s hs => ?_).bind fun pins _ => failsOnly_ok _
  obtain ⟨port, p, net, -, hnet, rfl⟩ := mem_sitesOf_connections.mp hs
  rw [adapt, adapting]
  split
  · exact failsOnly_error rfl
  · rw [Inquiry.result_bind, Inquiry.result_isArray]
    refine FailsOnly.bind ?_ fun isArray _ => ?_
    · exact (Connections.answers_located hc (Circuit.mem_nets_of_netOf? hnet)).bind
        fun _ _ => failsOnly_ok _
    · split
      · exact failsOnly_error rfl
      · rw [Inquiry.result_bind, Inquiry.result_lift,
          incoming_eq_ok (s := siteAt c entry (port, p) net) hc rfl, ok_bind]
        split
        · exact failsOnly_error rfl
        · exact failsOnly_ok _

theorem Declarations.ofCircuit_located {c : Circuit} (hc : c.Closed) {a : Support.Additions}
    (ha : a.Located c.connections) (wrappers : List Wrapper) (header : ModuleHeader) :
    FailsOnly Fault.Located (ofCircuit c c.connections wrappers a header) := by
  rw [ofCircuit_eq]
  refine (Declaration.placeBlocks_reports ha c wrappers).located.bind fun placed _ => ?_
  refine FailsOnly.bind ?_ fun connects _ => failsOnly_ok _
  rw [Connections.zipIdx_connections]
  refine failsOnly_mapM fun entry hentry => ?_
  obtain ⟨net, hnet, rfl⟩ := List.mem_map.mp hentry
  rw [Declaration.ofConnection, Declaration.connecting, Inquiry.result_bind,
    Inquiry.result_isArray]
  refine FailsOnly.bind ?_ fun isArray _ => ?_
  · exact (Connections.answers_located hc hnet).bind fun _ _ => failsOnly_ok _
  · rw [Inquiry.result_bind, Inquiry.result_lift]
    refine (failsOnly_mapM fun m hm => ?_).bind fun members _ => failsOnly_ok _
    obtain ⟨e, he⟩ := hc.exists_endpoint hm
    exact (Declaration.ofMember_reports hc isArray he).located

/-- What looks up connections and ports finds them, pass by pass and whether or not the passes
before succeed. -/
structure Connections.InRange (circuit : Circuit) (cs : Connections) : Prop where
  /-- Ids are positions, and both indices lead to connections. -/
  indexed : cs.Indexed
  members : cs.Closed circuit
  get : ∀ k ∈ cs.list, cs.get k.id = .ok k
  find : ∀ name, ∃ found, cs.find? name = .ok found
  owner : ∀ r, ∃ found, cs.owner? r = .ok found
  listing : ∃ text, cs.listing circuit = .ok text
  shape : ∀ k ∈ cs.list, FailsOnly Fault.Located (k.shape circuit)
  checkShapes : FailsOnly Fault.Located (cs.checkShapes circuit)
  wrapAll : ∀ registry, FailsOnly Fault.Located (Wrapper.wrapAll registry circuit cs)
  /-- Blocks are added to connections that are there. -/
  plan : ∀ registry, ∃ a, Support.plan registry circuit cs = .ok a ∧ a.Located cs
  emit : ∀ registry wrappers header a, Support.plan registry circuit cs = .ok a →
    FailsOnly Fault.Located (Declarations.ofCircuit circuit cs wrappers a header)

theorem Connections.inRange_connections {c : Circuit} (hc : c.Closed) (hshared : c.Unshared) :
    c.connections.InRange c where
  indexed := indexed_connections hshared
  members := closed_connections hc
  get k hk := by
    obtain ⟨i, hi⟩ := List.getElem?_of_mem hk
    rw [(indexed_connections hshared).ids i k hi]
    exact get_of_getElem? hi
  find name := by
    obtain ⟨found, hfound, -⟩ := (indexed_connections hshared).find?_eq name
    exact ⟨found, hfound⟩
  owner r := (indexed_connections hshared).exists_owner? r
  listing := exists_listing hc
  shape k hk := Connection.shape_located (closed_connections hc k hk)
  checkShapes := (checkShapes_reports hc).located
  wrapAll := Wrapper.wrapAll_located hc
  plan registry := Support.plan_located hc.targets registry
  emit registry wrappers header a ha := by
    obtain ⟨b, hb, hlocated⟩ := Support.plan_located hc.targets registry
    cases ha.symm.trans hb
    exact Declarations.ofCircuit_located hc hlocated wrappers header

theorem Netlist.lower_located (registry : Registry) (header : ModuleHeader) (n : Netlist) :
    FailsOnly Fault.Located (n.lower registry header) := by
  rw [lower_eq_stages]
  exact (n.stages_reports registry header).mapError fun _ hstop => hstop.located

private theorem problem_ne_of_lowerText {registry : Registry} {header : ModuleHeader}
    {text : String} {problem : Problem} (hproblem : lowerText registry header text = .error problem)
    {lost : Fault} (hlost : lost.isLost = true) : problem ≠ lost.problem := by
  rw [lowerText] at hproblem
  cases hread : Netlist.read? text with
  | none =>
    rw [hread] at hproblem
    cases hproblem
    exact lost.problem_ne_format.symm
  | some n =>
    rw [hread] at hproblem
    dsimp only at hproblem
    rw [Netlist.lower_eq_stages] at hproblem
    cases hstages : n.stages registry header with
    | ok d =>
      rw [hstages] at hproblem
      cases hproblem
    | error stop =>
      rw [hstages] at hproblem
      cases hproblem
      exact (n.stages_reports registry header stop hstages).problem_ne hlost

namespace Command

/-- The failure is about a position that leads nowhere. -/
def Failure.IsLost : Failure → Prop
  | lowering problem => ∃ f : Fault, f.isLost = true ∧ problem = f.problem
  | pipeline stop => stop.fault.isLost = true
  | _ => False

private theorem not_isLost_of_listed {x : Option (Except Fault String)}
    (hx : ∀ listing, x = some listing → ∃ text, listing = .ok text) {failure : Failure}
    (hfailure : listed x = .error failure) : ¬ failure.IsLost := by
  cases x with
  | none => cases hfailure
  | some listing =>
    obtain ⟨text, rfl⟩ := hx listing rfl
    cases hfailure

/-- A run that is asked for in order fails for a reason of the netlist. -/
theorem not_isLost_of_run {registry : Registry} {header : ModuleHeader} {n : Netlist} {pass : Pass}
    {stop : Stop} (hstop : ((Workspace.new registry n).run header pass).result = .error stop) :
    ¬ (Failure.pipeline stop).IsLost := by
  have hready : Workspace.Ready [] (.new registry n) := nofun
  have hreported := Workspace.runPasses_reports hready (by simp) (Pass.ordered_required pass) hstop
  exact Bool.eq_false_iff.mp hreported.located

private theorem closed_of_buildGraph {registry : Registry} {header : ModuleHeader} {n : Netlist}
    {c : Circuit} (hc : ((Workspace.new registry n).run header .buildGraph).workspace.circuit =
      some c) : c.Closed := by
  have hpasses : Pass.buildGraph.required = [.buildGraph] := rfl
  simp only [Workspace.run, hpasses, Workspace.runPasses, Workspace.step, Workspace.buildGraph,
    Workspace.new] at hc
  cases hcircuit : Circuit.ofNetlist registry n with
  | error f =>
    rw [hcircuit] at hc
    cases hc
  | ok circuit =>
    rw [hcircuit] at hc
    cases hc
    obtain ⟨hn, rfl⟩ := Circuit.ofNetlist_eq_ok_iff.mp hcircuit
    exact hn.closed registry

private theorem closed_of_aggregate {registry : Registry} {header : ModuleHeader} {n : Netlist}
    {c : Circuit} {cs : Connections}
    (hc : ((Workspace.new registry n).run header .aggregate).workspace.circuit = some c)
    (hcs : ((Workspace.new registry n).run header .aggregate).workspace.connections = some cs) :
    c.Closed ∧ cs = c.connections := by
  have hpasses : Pass.aggregate.required = [.buildGraph, .aggregate] := rfl
  simp only [Workspace.run, hpasses, Workspace.runPasses, Workspace.step, Workspace.buildGraph,
    Workspace.new] at hc hcs
  cases hcircuit : Circuit.ofNetlist registry n with
  | error f =>
    rw [hcircuit] at hc
    cases hc
  | ok circuit =>
    rw [hcircuit] at hc hcs
    simp only [Workspace.aggregate] at hc hcs
    cases hconnections : Connections.ofCircuit circuit with
    | error f =>
      rw [hconnections] at hcs
      cases hcs
    | ok connections =>
      rw [hconnections] at hc hcs
      cases hc
      cases hcs
      obtain ⟨hn, rfl⟩ := Circuit.ofNetlist_eq_ok_iff.mp hcircuit
      exact ⟨hn.closed registry, (Connections.ofCircuit_eq_ok_iff.mp hconnections).2⟩

private theorem not_isLost_of_produce {c : Command} {registry : Registry} {text : String}
    {failure : Failure} (hfailure : c.produce registry text = .error failure) :
    ¬ failure.IsLost := by
  have hformat : ¬ (Failure.lowering .format).IsLost := by
    rintro ⟨f, -, hf⟩
    exact f.problem_ne_format hf.symm
  rw [produce] at hfailure
  split at hfailure
  · split at hfailure
    · cases hfailure
    next problem hproblem =>
      cases hfailure
      rintro ⟨f, hf, hsame⟩
      exact problem_ne_of_lowerText hproblem hf hsame
  · cases hfailure
  · split at hfailure
    · cases hfailure
      exact hformat
    next n _ =>
      dsimp only at hfailure
      split at hfailure
      next stop hstop =>
        cases hfailure
        exact not_isLost_of_run hstop
      next hok =>
        refine not_isLost_of_listed (fun listing hlisting => ?_) hfailure
        obtain ⟨circuit, hcircuit, rfl⟩ := Option.map_eq_some_iff.mp hlisting
        exact (closed_of_buildGraph hcircuit).exists_listing
  · split at hfailure
    · cases hfailure
      exact hformat
    next n _ =>
      dsimp only at hfailure
      split at hfailure
      next stop hstop =>
        cases hfailure
        exact not_isLost_of_run hstop
      next hok =>
        refine not_isLost_of_listed (fun listing hlisting => ?_) hfailure
        obtain ⟨cs, hcs, hlisting⟩ := Option.bind_eq_some_iff.mp hlisting
        obtain ⟨circuit, hcircuit, hlisting⟩ := Option.bind_eq_some_iff.mp hlisting
        obtain ⟨hclosed, rfl⟩ := closed_of_aggregate hcircuit hcs
        cases hlisting
        exact Connections.exists_listing hclosed
  · cases hfailure

end Command

/-- Nodes, labels and the ports of each node can be counted in 32 bits. -/
structure Netlist.Fits (n : Netlist) : Prop where
  nodes : n.nodes.length < UInt32.size
  labels : n.labels.length < UInt32.size
  ports : ∀ e ∈ n.nodes, e.2.ports.length < UInt32.size

namespace Netlist

/-- A port that a label stands on has positions of 32 bits. -/
theorem Fits.target_lt {registry : Registry} {n : Netlist} (hfits : n.Fits) (hn : n.Resolvable)
    {l : Circuit.Label} (hl : l ∈ (n.circuit registry).labels) :
    l.target.node < UInt32.size ∧ l.target.port < UInt32.size := by
  obtain ⟨e, he⟩ := (hn.closed registry).targets l hl
  obtain ⟨hnode, hport⟩ := Circuit.endpoint?_eq_some_iff.mp he
  obtain ⟨hnodeLt, -⟩ := List.getElem?_eq_some_iff.mp hnode
  obtain ⟨hportLt, -⟩ := List.getElem?_eq_some_iff.mp hport
  obtain ⟨entry, hentry, hsame⟩ := List.mem_map.mp (List.mem_of_getElem? hnode)
  have hports : e.node.ports.length = entry.2.ports.length := by
    rw [← hsame]
    rfl
  have hnodes : (n.circuit registry).nodes.length = n.nodes.length := List.length_map _
  have hnodesFit := hfits.nodes
  have hportsFit := hfits.ports entry hentry
  omega

/-- There are no more connections than labels. -/
theorem Fits.connections_lt {registry : Registry} {n : Netlist} (hfits : n.Fits) :
    (n.circuit registry).connections.list.length < UInt32.size := by
  have hnets : (n.circuit registry).nets.length ≤
      ((n.circuit registry).labels.map (·.name)).length := by
    apply List.Subperm.length_le
    apply List.subperm_of_subset (n.circuit registry).nodup_nets
    exact fun name hname => List.mem_eraseDups.mp hname
  have hlabels : (n.circuit registry).labels.length = n.labels.length := List.length_map _
  have hlabelsFit := hfits.labels
  rw [List.length_map] at hnets
  rw [Circuit.connections, List.length_map]
  omega

/-- Positions lead somewhere. Once the circuit of a netlist is built, its labels and slots refer to
ports that are there, and so does all that is made of it, by positions that fit in 32 bits if the
netlist does; lowering a text and running a command never come to a position that leads nowhere. -/
theorem positions_in_range (registry : Registry) :
    (∀ n c, Circuit.ofNetlist registry n = .ok c →
      c.Indexed ∧ (∃ text, c.listing = .ok text) ∧
        (n.Fits → ∀ l ∈ c.labels, l.target.node < UInt32.size ∧ l.target.port < UInt32.size) ∧
        FailsOnly Fault.Located (Connections.ofCircuit c) ∧
        ∀ cs, Connections.ofCircuit c = .ok cs →
          cs.InRange c ∧ (n.Fits → cs.list.length < UInt32.size)) ∧
      (∀ header (n : Netlist), FailsOnly Fault.Located (n.lower registry header)) ∧
      (∀ header text problem (lost : Fault), lowerText registry header text = .error problem →
        lost.isLost = true → problem ≠ lost.problem) ∧
      ∀ (command : Command) text failure,
        command.produce registry text = .error failure → ¬ failure.IsLost := by
  refine ⟨fun n c hc => ?_, lower_located registry,
    fun _ _ _ _ hproblem => problem_ne_of_lowerText hproblem,
    fun _ _ _ => Command.not_isLost_of_produce⟩
  obtain ⟨hn, rfl⟩ := Circuit.ofNetlist_eq_ok_iff.mp hc
  have hclosed := hn.closed registry
  refine ⟨hclosed.indexed, hclosed.exists_listing, fun hfits l hl => hfits.target_lt hn hl,
    (Connections.ofCircuit_reports hclosed).located, ?_⟩
  intro cs hcs
  obtain ⟨hshared, rfl⟩ := Connections.ofCircuit_eq_ok_iff.mp hcs
  exact ⟨Connections.inRange_connections hclosed hshared, fun hfits => hfits.connections_lt⟩

/-- A lamp on a slot of a controller's pins. -/
def slotBoard : Netlist where
  nodes := [
    ("m", {
      id := "m"
      name := "mcu"
      type := "Mcu"
      superClasses := []
      ports := [⟨"gpio", "DigitalBidir", true, none⟩, ⟨"led", "DigitalBidir", false, some 0⟩]
      arguments := [] }),
    ("l", {
      id := "l"
      name := "lamp"
      type := "IndicatorLed"
      superClasses := []
      ports := [⟨"signal", "DigitalSink", false, none⟩]
      arguments := [] })]
  labels := [("1", ⟨"on", "l", 0⟩), ("2", ⟨"on", "m", 1⟩)]

theorem positions_in_range_slotBoard :
    ∃ c cs, Circuit.ofNetlist .builtin slotBoard = .ok c ∧ Connections.ofCircuit c = .ok cs ∧
      slotBoard.Fits ∧ c.Indexed ∧ cs.InRange c ∧ cs.list.length < UInt32.size ∧
      cs = ⟨[⟨0, "on", [⟨1, 0⟩, ⟨0, 1⟩], none⟩], [("on", 0)], [(⟨1, 0⟩, 0), (⟨0, 1⟩, 0)]⟩ := by
  have hc : Circuit.ofNetlist .builtin slotBoard = .ok (slotBoard.circuit .builtin) := by rfl
  have hcs : Connections.ofCircuit (slotBoard.circuit .builtin) =
      .ok ⟨[⟨0, "on", [⟨1, 0⟩, ⟨0, 1⟩], none⟩], [("on", 0)], [(⟨1, 0⟩, 0), (⟨0, 1⟩, 0)]⟩ :=
    eq_ok_of_toOption_eq_some (by decide +kernel)
  have hfits : slotBoard.Fits := ⟨by decide, by decide, by decide⟩
  obtain ⟨hindexed, -, -, -, hrange⟩ := (positions_in_range .builtin).1 slotBoard _ hc
  obtain ⟨hinRange, hcount⟩ := hrange _ hcs
  exact ⟨_, _, hc, hcs, hfits, hindexed, hinRange, hcount hfits, rfl⟩

end Netlist

end Schematic
