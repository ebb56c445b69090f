import Schematic.Proofs.Lowering.Design

namespace Schematic

namespace Declaration

/-- A reference to a port of a connection in the form that arrays or single signals ask for: a port
that is no slot must be of that shape itself, and a slot is requested in it. -/
inductive Suits (c : Circuit) (k : Connection) : Bool → Expression → Prop where
  | port {r : PortRef} {e : Endpoint} {isArray : Bool} (hr : r ∈ k.members)
      (he : c.endpoint? r = some e) (hsolid : e.port.slotOf = none)
      (hshape : e.port.isArray = isArray) : Suits c k isArray (.port e.node.name e.port.name)
  | request {r : PortRef} {e : Endpoint} {j : Nat} {parent : Port} (hr : r ∈ k.members)
      (he : c.endpoint? r = some e) (hslot : e.port.slotOf = some j)
      (hparent : e.node.ports[j]? = some parent) :
      Suits c k false (.request e.node.name parent.name e.port.name)
  | requestVector {r : PortRef} {e : Endpoint} {j : Nat} {parent : Port} (hr : r ∈ k.members)
      (he : c.endpoint? r = some e) (hslot : e.port.slotOf = some j)
      (hparent : e.node.ports[j]? = some parent) :
      Suits c k true (.requestVector e.node.name parent.name e.port.name)

end Declaration

open Declaration (Suits)

namespace Circuit

theorem Uniform.isArray_eq {c : Circuit} {net : String} (hnet : c.Uniform net) {e : Endpoint}
    (he : e ∈ c.solid net) : e.port.isArray = c.carriesArray net := by
  rw [carriesArray, Bool.eq_iff_iff, List.any_eq_true]
  constructor
  · intro harray
    exact ⟨e, he, harray⟩
  · rintro ⟨f, hf, harray⟩
    rw [hnet e he f hf]
    exact harray

private theorem suits_reference {c : Circuit} (hc : c.Closed) {net : String} (hnet : c.Uniform net)
    {e : Endpoint} (he : e ∈ c.endpoints (c.wired net)) :
    Suits c (c.connection net) (c.carriesArray net) (e.reference (c.carriesArray net)) := by
  obtain ⟨r, hr, her⟩ := mem_endpoints.mp he
  obtain ⟨hnode, hport⟩ := endpoint?_eq_some_iff.mp her
  rw [Endpoint.reference]
  cases hslot : e.port.slotOf with
  | none =>
    have hsolid : e ∈ c.solid net := List.mem_filter.mpr ⟨he, by simp [Port.isSlot, hslot]⟩
    exact .port hr her hslot (hnet.isArray_eq hsolid)
  | some j =>
    obtain ⟨parent, hparent, -⟩ := hc.slots e.node (List.mem_of_getElem? hnode) e.port
      (List.mem_of_getElem? hport) j hslot
    simp only [hparent, Option.map_some, Option.getD_some]
    cases c.carriesArray net with
    | true => exact .requestVector hr her hslot hparent
    | false => exact .request hr her hslot hparent

/-- No supply is for a bus that carries arrays. -/
theorem net_ne_of_carriesArray {registry : Registry} {c : Circuit} {net : String}
    (harray : c.carriesArray net = true) {s : Supply} (hs : s ∈ c.supplies registry) :
    s.net ≠ net := by
  rintro rfl
  obtain ⟨-, -, hsupply⟩ := mem_supplies.mp hs
  obtain ⟨-, hscalar, -⟩ := supplyAt?_eq_some_iff.mp hsupply
  rw [harray] at hscalar
  cases hscalar

theorem mem_connectOf {registry : Registry} {c : Circuit} {net : String}
    {m : Declaration.Expression} :
    m ∈ (c.connectOf registry net).members ↔
      (∃ e ∈ c.endpoints (c.wired net), e.reference (c.carriesArray net) = m) ∨
        ∃ s ∈ c.supplies registry, ∃ y ∈ s.membersOn net, y.reference = m := by
  simp only [connectOf, List.mem_append, List.mem_map, List.mem_flatMap]
  refine or_congr_right ?_
  constructor
  · rintro ⟨y, ⟨s, hs, hy⟩, rfl⟩
    exact ⟨s, hs, y, hy, rfl⟩
  · rintro ⟨s, hs, y, hy, rfl⟩
    exact ⟨y, ⟨s, hs, hy⟩, rfl⟩

/-- Every member suits what its net carries, unless it belongs to a supply. -/
theorem suits_or_supply {registry : Registry} {c : Circuit} (hc : c.Closed) {net : String}
    (hnet : c.Uniform net) {m : Declaration.Expression}
    (hm : m ∈ (c.connectOf registry net).members) :
    Suits c (c.connection net) (c.carriesArray net) m ∨
      ∃ s ∈ c.supplies registry, ∃ y ∈ s.membersOn net, y.reference = m := by
  obtain ⟨e, he, rfl⟩ | hsupply := mem_connectOf.mp hm
  · exact .inl (suits_reference hc hnet he)
  · exact .inr hsupply

section

variable {registry : Registry} {c : Circuit} {net : String} (harray : c.carriesArray net = true)

include harray

/-- What supplies have on a net that carries arrays are the power ports of those powered by it. -/
theorem membersOn_of_carriesArray {s : Supply} (hs : s ∈ c.supplies registry)
    {y : Support.Member} :
    y ∈ s.membersOn net ↔ s.power = net ∧ y = ⟨s.blockName, s.rule.supportPowerPort⟩ := by
  simp [Supply.membersOn, net_ne_of_carriesArray harray hs]

/-- All members of the connect of an array suit it unless a supply is powered by it. -/
theorem forall_suits_array_iff (hclosed : c.Closed) (hnet : c.Uniform net)
    (hsupplies : c.SuppliesNamed registry) :
    (∀ m ∈ (c.connectOf registry net).members, Suits c (c.connection net) true m) ↔
      ∀ s ∈ c.supplies registry, s.power ≠ net := by
  constructor
  · intro hall s hs hpower
    have hmember := (membersOn_of_carriesArray harray hs).mpr ⟨hpower, rfl⟩
    have hsuits := hall _ (mem_connectOf.mpr (.inr ⟨s, hs, _, hmember, rfl⟩))
    -- The reference names the added block, which no node of the circuit is named like.
    generalize hm : (Support.Member.reference ⟨s.blockName, s.rule.supportPowerPort⟩) = m at hsuits
    cases hsuits with
    | port hr he hsolid hshape =>
      obtain ⟨hnode, -⟩ := endpoint?_eq_some_iff.mp he
      obtain ⟨hname, -⟩ := Declaration.Expression.port.inj hm
      exact hsupplies.free s hs _ (List.mem_of_getElem? hnode) hname.symm
    | requestVector => cases hm
  · intro hfree m hm
    obtain hsuits | ⟨s, hs, y, hy, rfl⟩ := suits_or_supply hclosed hnet hm
    · rwa [harray] at hsuits
    · exact absurd ((membersOn_of_carriesArray harray hs).mp hy).1 (hfree s hs)

end

/-- A net carries arrays exactly when the shape that is found for its connection is the array. -/
theorem Uniform.shapeIn_eq_array_iff {c : Circuit} (hc : c.Closed) {net : String}
    (hnet : c.Uniform net) :
    (c.connection net).shapeIn c = .ok .array ↔ c.carriesArray net = true := by
  have hshape := (Connection.shape_connection_eq_ok_iff hc).mpr ⟨hnet, rfl⟩
  rw [Connection.shape_of_unknown rfl] at hshape
  rw [hshape, Except.ok.injEq, hnet.shapeOf_eq_array_iff]

theorem getElem?_connections_eq_some_iff {c : Circuit} {i : Nat} {k : Connection} :
    c.connections.list[i]? = some k ↔ ∃ net, c.nets[i]? = some net ∧ c.connection net = k := by
  rw [connections, List.getElem?_map, Option.map_eq_some_iff]

end Circuit

namespace Netlist

/-- The connect of an array connection has members of array form only, exactly when no added block
is powered by the connection; otherwise the power ports of such blocks are among them, which are
single. No added block has its bus port there. The connect of any other connection has members of
single form and ports of added blocks only. -/
theorem lower_connect_suits_iff {registry : Registry} {header : ModuleHeader} {n : Netlist}
    {d : Declarations} {c : Circuit} {cs : Connections} (hd : n.lower registry header = .ok d)
    (hc : Circuit.ofNetlist registry n = .ok c) (hcs : Connections.ofCircuit c = .ok cs) {i : Nat}
    {k : Connection} (hk : cs.list[i]? = some k) :
    ∃ a x, Support.plan registry c cs = .ok a ∧ d.connects[i]? = some x ∧ x.label = k.name ∧
      (k.shapeIn c = .ok .array →
        ((∀ m ∈ x.members, Suits c k true m) ↔ ∀ s ∈ a.blocks, s.powerConnection ≠ i) ∧
        (∀ m ∈ x.members, Suits c k true m ∨
          ∃ s ∈ a.blocks, s.powerConnection = i ∧
            ∃ rule ∈ registry.buses, rule.kind = s.bus ∧ m = .port s.name rule.supportPowerPort) ∧
        ∀ s ∈ a.blocks, s.busConnection ≠ i) ∧
      (k.shapeIn c ≠ .ok .array → ∀ m ∈ x.members, Suits c k false m ∨
        ∃ y ∈ a.membersOf i, m = .port y.block y.port) := by
  obtain ⟨hn, hsound, rfl⟩ := lower_eq_ok_iff.mp hd
  obtain ⟨-, rfl⟩ := Circuit.ofNetlist_eq_ok_iff.mp hc
  obtain ⟨-, rfl⟩ := Connections.ofCircuit_eq_ok_iff.mp hcs
  obtain ⟨net, hnet, rfl⟩ := Circuit.getElem?_connections_eq_some_iff.mp hk
  have hclosed := hn.closed registry
  have hmem := List.mem_of_getElem? hnet
  have huniform := hsound.uniform net hmem
  obtain rfl : (n.circuit registry).nets.idxOf net = i := by
    obtain ⟨hi, rfl⟩ := List.getElem?_eq_some_iff.mp hnet
    exact (n.circuit registry).nodup_nets.idxOf_getElem i hi
  obtain ⟨a, ha, hsupplied, -⟩ := Support.plan_connections hclosed hsound.uniform registry
  refine ⟨a, (n.circuit registry).connectOf registry net, ha, ?_, rfl, ?_, ?_⟩
  · rw [Circuit.design, List.getElem?_map, hnet]
    rfl
  · intro hshape
    have harray := (huniform.shapeIn_eq_array_iff hclosed).mp hshape
    rw [hsupplied.blocks]
    refine ⟨?_, ?_, ?_⟩
    · rw [Circuit.forall_suits_array_iff harray hclosed huniform hsound.supplies,
        List.forall_mem_map]
      refine forall₂_congr fun s hs => not_congr ?_
      exact (List.idxOf_inj (Circuit.mem_nets_of_mem_supplies hs).1).symm
    · intro m hm
      obtain hsuits | ⟨s, hs, y, hy, rfl⟩ := Circuit.suits_or_supply hclosed huniform hm
      · rw [harray] at hsuits
        exact .inl hsuits
      · obtain ⟨rfl, rfl⟩ := (Circuit.membersOn_of_carriesArray harray hs).mp hy
        obtain ⟨-, hrule, -⟩ := Circuit.mem_supplies.mp hs
        exact .inr ⟨_, List.mem_map_of_mem hs, rfl, s.rule, hrule, rfl, rfl⟩
    · rw [List.forall_mem_map]
      intro s hs hbus
      exact Circuit.net_ne_of_carriesArray harray hs
        ((List.idxOf_inj (Circuit.mem_nets_of_mem_supplies hs).2).mp hbus)
  · intro hshape m hm
    have hscalar : (n.circuit registry).carriesArray net = false := by
      rw [← Bool.not_eq_true, ← huniform.shapeIn_eq_array_iff hclosed]
      exact hshape
    rw [hsupplied.members]
    obtain hsuits | ⟨s, hs, y, hy, rfl⟩ := Circuit.suits_or_supply hclosed huniform hm
    · rw [hscalar] at hsuits
      exact .inl hsuits
    · exact .inr ⟨y, List.mem_flatMap.mpr ⟨s, hs, hy⟩, rfl⟩

/-- A board with one part, which has a port of some type and is powered by an array. -/
def arrayPowered (type : String) : Netlist where
  nodes := [("mcu", {
    id := "mcu"
    name := "mcu"
    type := "Mcu"
    superClasses := []
    ports := [⟨"link", type, false, none⟩, ⟨"pwr", "VoltageSink", true, none⟩]
    arguments := [] })]
  labels := [("1", ⟨"net", "mcu", 0⟩), ("2", ⟨"v", "mcu", 1⟩)]

/-- The connection that powers the part. -/
def arrayPower : Connection :=
  ⟨1, "v", [⟨0, 1⟩], none⟩

/-- With a port of no bus all members of the array suit it. -/
theorem lower_connect_suits_arrayPowered :
    ∃ d c cs x, (arrayPowered "SpiController").lower .builtin {} = .ok d ∧
      Circuit.ofNetlist .builtin (arrayPowered "SpiController") = .ok c ∧
      Connections.ofCircuit c = .ok cs ∧ cs.list[1]? = some arrayPower ∧
      arrayPower.shapeIn c = .ok .array ∧ d.connects[1]? = some x ∧
      x.members = [.port "mcu" "pwr"] ∧ ∀ m ∈ x.members, Suits c arrayPower true m := by
  have hd : (arrayPowered "SpiController").lower .builtin {} = .ok {
      header := {}
      connectors := []
      blocks := [⟨"mcu", "Mcu", []⟩]
      connects := [⟨"net", [.port "mcu" "link"]⟩, ⟨"v", [.port "mcu" "pwr"]⟩] } :=
    eq_ok_of_toOption_eq_some (by decide +kernel)
  have hc := ofNetlist_of_lower hd
  have hcs := Connections.ofCircuit_eq_ok_iff.mpr ⟨(lower_eq_ok_iff.mp hd).2.1.unshared, rfl⟩
  have hk : ((arrayPowered "SpiController").circuit .builtin).connections.list[1]? =
      some arrayPower := by
    decide +kernel
  have hshape : arrayPower.shapeIn ((arrayPowered "SpiController").circuit .builtin) =
      .ok .array := rfl
  have hnone : Support.plan .builtin ((arrayPowered "SpiController").circuit .builtin)
      ((arrayPowered "SpiController").circuit .builtin).connections = .ok .empty :=
    eq_ok_of_toOption_eq_some (by decide +kernel)
  obtain ⟨a, x, ha, hx, -, harray, -⟩ := lower_connect_suits_iff hd hc hcs hk
  cases hnone.symm.trans ha
  cases hx
  refine ⟨_, _, _, _, hd, hc, hcs, hk, hshape, rfl, rfl, (harray hshape).1.mpr ?_⟩
  simp [Support.Additions.empty]

/-- The pull-up that a bus gets is powered by the array. -/
theorem arrayPowered_bus_unsuited :
    ∃ d c cs x, (arrayPowered "I2cController").lower .builtin {} = .ok d ∧
      Circuit.ofNetlist .builtin (arrayPowered "I2cController") = .ok c ∧
      Connections.ofCircuit c = .ok cs ∧ cs.list[1]? = some arrayPower ∧
      arrayPower.shapeIn c = .ok .array ∧ d.connects[1]? = some x ∧
      x.members = [.port "mcu" "pwr", .port "_implicit_i2c_pullup_net" "pwr"] ∧
      ¬ ∀ m ∈ x.members, Suits c arrayPower true m := by
  have hd : (arrayPowered "I2cController").lower .builtin {} = .ok {
      header := {}
      connectors := []
      blocks := [⟨"mcu", "Mcu", []⟩, ⟨"_implicit_i2c_pullup_net", "I2cPullup", []⟩]
      connects := [
        ⟨"net", [.port "mcu" "link", .port "_implicit_i2c_pullup_net" "i2c"]⟩,
        ⟨"v", [.port "mcu" "pwr", .port "_implicit_i2c_pullup_net" "pwr"]⟩] } :=
    eq_ok_of_toOption_eq_some (by decide +kernel)
  have hc := ofNetlist_of_lower hd
  have hcs := Connections.ofCircuit_eq_ok_iff.mpr ⟨(lower_eq_ok_iff.mp hd).2.1.unshared, rfl⟩
  refine ⟨_, _, _, _, hd, hc, hcs, by decide +kernel, rfl, rfl, rfl, fun hall => ?_⟩
  have hsuits := hall _ (List.mem_cons_of_mem _ List.mem_cons_self)
  generalize hm : Declaration.Expression.port "_implicit_i2c_pullup_net" "pwr" = m at hsuits
  cases hsuits with
  | port hr he hsolid hshape =>
    obtain rfl := List.mem_singleton.mp hr
    cases he
    obtain ⟨hname, -⟩ := Declaration.Expression.port.inj hm
    revert hname
    decide
  | requestVector => cases hm

end Netlist

end Schematic
