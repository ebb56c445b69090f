import Schematic.Proofs.Lowering.Realized
import Schematic.Proofs.Netlist.Append
import Schematic.Proofs.Netlist.Placed

namespace Schematic

namespace Registry

variable {rule : BusRule}

private theorem support_of_mem_builtin (hrule : rule ∈ builtin.buses) :
    rule.supportClass = "I2cPullup" ∧ rule.supportBusPort = "i2c" ∧
      rule.supportPowerPort = "pwr" := by
  obtain rfl := List.mem_singleton.mp hrule
  exact ⟨rfl, rfl, rfl⟩

private theorem types_of_mem_builtin (hrule : rule ∈ builtin.buses) :
    rule.controllerTypes = ["I2cController"] ∧ rule.targetTypes = ["I2cTarget"] := by
  obtain rfl := List.mem_singleton.mp hrule
  exact ⟨rfl, rfl⟩

end Registry

namespace Netlist

theorem Placement.role_component (p : Placement) (name : String) :
    (Circuit.nodeOf .builtin (p.key, p.component name)).role = .support .i2c := by
  change Registry.builtin.roleOf "I2cPullup" [] = .support .i2c
  decide

theorem Placement.Inert.port {p : Placement} (hp : p.Inert) {name type : String}
    (hname : Text.isIdentifier name = true) (htype : type ∈ [p.busType, p.powerType]) :
    Port.Inert .builtin ⟨name, type, false, none⟩ := by
  obtain ⟨hcontroller, htarget⟩ := hp type htype
  refine ⟨hname, rfl, rfl, fun rule hrule => ?_, fun rule hrule => ?_⟩
  · rw [BusRule.isController, (Registry.types_of_mem_builtin hrule).1]
    simpa using hcontroller
  · rw [BusRule.isTarget, (Registry.types_of_mem_builtin hrule).2]
    simpa using htarget

section

variable {c : Circuit} {supplies : List (Supply × Placement)}
  (hsupplies : supplies.map (·.1) = c.supplies .builtin)

include hsupplies

theorem mem_supplies_of_mem {s : Supply} {p : Placement} (hs : (s, p) ∈ supplies) :
    s ∈ c.supplies .builtin := by
  rw [← hsupplies]
  exact List.mem_map_of_mem hs

private theorem support_of_mem_supplies {s : Supply} {p : Placement} (hs : (s, p) ∈ supplies) :
    s.rule.supportClass = "I2cPullup" ∧ s.rule.supportBusPort = "i2c" ∧
      s.rule.supportPowerPort = "pwr" := by
  obtain ⟨-, hrule, -⟩ := Circuit.mem_supplies.mp (mem_supplies_of_mem hsupplies hs)
  exact Registry.support_of_mem_builtin hrule

private theorem map_block_realized :
    ((realized supplies).circuit .builtin).nodes.map (·.block) =
      (c.supplies .builtin).map (·.block) := by
  rw [← hsupplies]
  simp only [circuit, realized, List.map_map]
  refine List.map_congr_left fun x hx => ?_
  obtain ⟨s, p⟩ := x
  have hrole := p.role_component s.blockName
  simp only [Function.comp_apply, Circuit.Node.block, hrole, reduceCtorEq, if_false, Supply.block,
    (support_of_mem_supplies hsupplies hx).1]
  rfl

private theorem members_realized (hkeys : (supplies.map (·.2.key)).Nodup) (net : String) :
    (((realized supplies).circuit .builtin).endpoints
        (((realized supplies).circuit .builtin).wired net)).map (·.member) =
      (c.supplies .builtin).flatMap fun s => s.membersOn net := by
  rw [← hsupplies, endpoints_realized hkeys, List.map_flatMap, List.flatMap_map]
  refine List.flatMap_congr fun x hx => ?_
  obtain ⟨s, p⟩ := x
  obtain ⟨-, hbus, hpower⟩ := support_of_mem_supplies hsupplies hx
  rw [Supply.membersOn, hbus, hpower, List.map_append]
  by_cases hp : s.power = net <;> by_cases hb : s.net = net <;> simp only [hp, hb] <;> rfl

private theorem realizes_realized (hkeys : (supplies.map (·.2.key)).Nodup)
    (hsound : c.Sound .builtin) (hinert : ∀ x ∈ supplies, x.2.Inert)
    (hscalar : ∀ s ∈ c.supplies .builtin, c.carriesArray s.power = false)
    (hunwrapped : ∀ s ∈ c.supplies .builtin, ∀ net ∈ [s.power, s.net],
      ∀ e ∈ c.endpoints (c.wired net), e.node.role ≠ .connector) :
    ((realized supplies).circuit .builtin).Realizes .builtin c where
  closed := (resolvable_realized hkeys).closed .builtin
  unshared := unshared_realized hkeys .builtin
  writable node hnode := by
    obtain ⟨_, hentry, rfl⟩ := List.mem_map.mp hnode
    obtain ⟨⟨s, p⟩, hs, rfl⟩ := List.mem_map.mp hentry
    have hname := hsound.supplies.proper s (mem_supplies_of_mem hsupplies hs)
    have htype : Text.isIdentifier "I2cPullup" = true := by decide +kernel
    exact ⟨hname, htype, fun a ha => by cases ha⟩
  plain node hnode := by
    obtain ⟨_, hentry, rfl⟩ := List.mem_map.mp hnode
    obtain ⟨⟨s, p⟩, hs, rfl⟩ := List.mem_map.mp hentry
    rw [p.role_component]
    exact Role.noConfusion
  blocks := map_block_realized hsupplies
  inert l hl e he := by
    have hmem := Circuit.mem_endpoints.mpr ⟨_, Circuit.mem_wired.mpr ⟨l, hl, rfl, rfl⟩, he⟩
    obtain ⟨s, p, hs, ⟨-, rfl⟩ | ⟨-, rfl⟩⟩ := (mem_endpoints_realized hkeys).mp hmem
    · exact (hinert _ hs).port (by decide +kernel) (by simp)
    · exact (hinert _ hs).port (by decide +kernel) (by simp)
  members := members_realized hsupplies hkeys
  supports s hs := by
    rw [← hsupplies] at hs
    obtain ⟨⟨t, p⟩, hx, rfl⟩ := List.mem_map.mp hs
    exact ⟨_, (mem_endpoints_realized hkeys).mpr ⟨t, p, hx, .inr ⟨rfl, rfl⟩⟩, p.role_component _⟩
  scalar net hnet := by
    obtain ⟨s, p, hs, hnet⟩ := exists_of_mem_nets_realized hnet
    have hs := mem_supplies_of_mem hsupplies hs
    obtain ⟨-, -, hsupply⟩ := Circuit.mem_supplies.mp hs
    obtain ⟨-, hbus, -⟩ := Circuit.supplyAt?_eq_some_iff.mp hsupply
    simp only [List.mem_cons, List.not_mem_nil, or_false] at hnet
    rcases hnet with rfl | rfl
    · exact hscalar s hs
    · exact hbus
  unwrapped net hnet := by
    obtain ⟨s, p, hs, hnet⟩ := exists_of_mem_nets_realized hnet
    exact hunwrapped s (mem_supplies_of_mem hsupplies hs) net hnet

end

/-- The support blocks of the plan of a netlist can be placed by hand: the components have new keys
and inert ports, power comes from no array, and no connector is on a net of a block. -/
structure ByHand (n : Netlist) (c : Circuit) (cs : Connections) (a : Support.Additions)
    (blocks : List (Support × Placement)) : Prop where
  resolved : Circuit.ofNetlist .builtin n = .ok c
  gathered : Connections.ofCircuit c = .ok cs
  added : Support.plan .builtin c cs = .ok a
  planned : blocks.map (·.1) = a.blocks
  fresh : ∀ x ∈ blocks, x.2.key ∉ n.nodes.map (·.1)
  distinct : (blocks.map (·.2.key)).Nodup
  inert : ∀ x ∈ blocks, x.2.Inert
  scalar : ∀ block ∈ a.blocks, ∀ connection,
    cs.list[block.powerConnection]? = some connection → connection.shape c ≠ .ok .array
  unwrapped : ∀ (i : Nat) connection, cs.list[i]? = some connection → a.membersOf i ≠ [] →
    ∀ r ∈ connection.members, ∀ e, c.endpoint? r = some e → e.node.role ≠ .connector

section

variable {n : Netlist} {a : Support.Additions} {blocks : List (Support × Placement)}

theorem Resolvable.node_mem (hn : n.Resolvable) {e : String × Label} (he : e ∈ n.labels) :
    e.2.node ∈ n.nodes.map (·.1) := by
  obtain ⟨c, hlookup, -⟩ := hn.targets e he
  by_contra hkey
  rw [Circuit.lookup_eq_none_iff.mpr hkey] at hlookup
  cases hlookup

private theorem separate_realized (hn : n.Resolvable) {supplies : List (Supply × Placement)}
    (hfresh : ∀ x ∈ supplies, x.2.key ∉ n.nodes.map (·.1)) : n.Separate (realized supplies) where
  keys key hkey hplaced := by
    simp only [realized, List.map_map, List.mem_map, Function.comp_apply] at hplaced
    obtain ⟨x, hx, rfl⟩ := hplaced
    exact hfresh x hx hkey
  left e he := hn.node_mem he
  right e he := by
    obtain ⟨s, p, hs, rfl | rfl⟩ := mem_realized_labels.mp he
    · exact List.mem_map.mpr ⟨_, List.mem_map_of_mem hs, rfl⟩
    · exact List.mem_map.mpr ⟨_, List.mem_map_of_mem hs, rfl⟩

variable {c : Circuit} (hclosed : c.Closed) (hsound : c.Sound .builtin)
  (hplaced : n.ByHand c c.connections a blocks)

include hclosed hsound hplaced

theorem ByHand.supplied : a.Supplied .builtin c := by
  obtain ⟨_, ha, hsupplied, -⟩ := Support.plan_connections hclosed hsound.uniform .builtin
  cases hplaced.added.symm.trans ha
  exact hsupplied

/-- The blocks that are placed are the supplies of the circuit. -/
theorem ByHand.exists_supplies :
    ∃ supplies : List (Supply × Placement), supplies.map (·.1) = c.supplies .builtin ∧
      blocks = supplies.map fun x => (x.1.support c, x.2) := by
  have hplanned := hplaced.planned
  rw [(hplaced.supplied hclosed hsound).blocks] at hplanned
  exact exists_map_fst_eq hplanned

theorem ByHand.carriesArray_power {s : Supply} (hs : s ∈ c.supplies .builtin) :
    c.carriesArray s.power = false := by
  have hpower : s.power ∈ c.nets := Circuit.mem_nets_of_mem_supplies hs |>.1
  have huniform := hsound.uniform s.power hpower
  have hblock : s.support c ∈ a.blocks := by
    rw [(hplaced.supplied hclosed hsound).blocks]
    exact List.mem_map_of_mem hs
  have hsingle := hplaced.scalar _ hblock _ (Connections.getElem?_connections hpower)
  rw [← Bool.not_eq_true, ← huniform.shapeOf_eq_array_iff]
  intro harray
  exact hsingle ((Connection.shape_connection_eq_ok_iff hclosed).mpr ⟨huniform, harray.symm⟩)

theorem ByHand.role_ne_connector {s : Supply} (hs : s ∈ c.supplies .builtin) {net : String}
    (hnet : net ∈ [s.power, s.net]) {e : Endpoint} (he : e ∈ c.endpoints (c.wired net)) :
    e.node.role ≠ .connector := by
  obtain ⟨hpower, hbus⟩ := Circuit.mem_nets_of_mem_supplies hs
  obtain ⟨r, hr, hport⟩ := Circuit.mem_endpoints.mp he
  have hmember : ∀ y ∈ s.membersOn net, a.membersOf (c.nets.idxOf net) ≠ [] := by
    intro y hy
    rw [(hplaced.supplied hclosed hsound).members]
    exact List.ne_nil_of_mem (List.mem_flatMap.mpr ⟨s, hs, hy⟩)
  simp only [List.mem_cons, List.not_mem_nil, or_false] at hnet
  rcases hnet with rfl | rfl
  · refine hplaced.unwrapped _ _ (Connections.getElem?_connections hpower)
      (hmember ⟨s.blockName, s.rule.supportPowerPort⟩ ?_) r hr e hport
    simp [Supply.membersOn]
  · refine hplaced.unwrapped _ _ (Connections.getElem?_connections hbus)
      (hmember ⟨s.blockName, s.rule.supportBusPort⟩ ?_) r hr e hport
    simp [Supply.membersOn]

end

/-- Lowering a netlist in which the support blocks are placed by hand adds nothing and gives the
declarations of the netlist without them, and so the same text. -/
theorem lower_append_placed {n : Netlist} {c : Circuit} {cs : Connections} {a : Support.Additions}
    {blocks : List (Support × Placement)} (hplaced : n.ByHand c cs a blocks)
    {header : ModuleHeader} {d : Declarations} (hd : n.lower .builtin header = .ok d) :
    (∃ c' cs', Circuit.ofNetlist .builtin (n ++ placed cs blocks) = .ok c' ∧
      Connections.ofCircuit c' = .ok cs' ∧ Support.plan .builtin c' cs' = .ok .empty) ∧
    (n ++ placed cs blocks).lower .builtin header = .ok d := by
  obtain ⟨hn, hsound, rfl⟩ := lower_eq_ok_iff.mp hd
  obtain ⟨-, rfl⟩ := Circuit.ofNetlist_eq_ok_iff.mp hplaced.resolved
  obtain ⟨-, rfl⟩ := Connections.ofCircuit_eq_ok_iff.mp hplaced.gathered
  have hclosed := hn.closed .builtin
  obtain ⟨supplies, hsupplies, rfl⟩ := hplaced.exists_supplies hclosed hsound
  have hkeys : (supplies.map (·.2.key)).Nodup := by
    have hdistinct := hplaced.distinct
    rwa [List.map_map] at hdistinct
  have hreal := realizes_realized hsupplies hkeys hsound
    (fun x hx => hplaced.inert _ (List.mem_map_of_mem hx))
    (fun s hs => hplaced.carriesArray_power hclosed hsound hs)
    (fun s hs net hnet e he => hplaced.role_ne_connector hclosed hsound hs hnet he)
  -- The whole netlist splits into `n` and the placed entries, which share nets but no components.
  have hseparate : n.Separate (realized supplies) :=
    separate_realized hn fun x hx => hplaced.fresh _ (List.mem_map_of_mem hx)
  have hcircuit := hseparate.circuit_append .builtin
  have hn' : (n ++ realized supplies).Resolvable :=
    hseparate.resolvable_append_iff.mpr ⟨hn, resolvable_realized hkeys⟩
  have hsound' := hreal.sound_append hclosed hsound
  have hnone := hreal.supplies_append hclosed
  have hclosed' := hn'.closed .builtin
  rw [← hcircuit] at hsound' hnone
  rw [placed_eq_realized fun x hx =>
    Circuit.mem_nets_of_mem_supplies (mem_supplies_of_mem hsupplies hx)]
  refine ⟨⟨_, _, Circuit.ofNetlist_eq_ok_iff.mpr ⟨hn', rfl⟩,
    Connections.ofCircuit_eq_ok_iff.mpr ⟨hsound'.unshared, rfl⟩, ?_⟩, ?_⟩
  · exact Support.plan_eq_empty hclosed' hsound'.uniform hnone
  · refine lower_eq_ok_iff.mpr ⟨hn', hsound', ?_⟩
    rw [hcircuit, hreal.design_append hclosed]

/-- The support block of the board's bus. -/
def busBoardPullup : Support :=
  ⟨"_implicit_i2c_pullup_sensors", "I2cPullup", .i2c, 0, 1⟩

def busBoardPlacement : Placement :=
  ⟨"pullup", "pullup", "I2cSupport", "VoltageSink", "sensors_pullup", "v3_pullup"⟩

def busBoardConnections : Connections :=
  ⟨[⟨0, "sensors", [⟨0, 0⟩], none⟩, ⟨1, "v3", [⟨0, 1⟩], none⟩], [("sensors", 0), ("v3", 1)],
    [(⟨0, 0⟩, 0), (⟨0, 1⟩, 1)]⟩

/-- What is added to the board, the ports by the positions of the nets. -/
def busBoardAdditions : Support.Additions :=
  ⟨[busBoardPullup],
    [[⟨"_implicit_i2c_pullup_sensors", "i2c"⟩], [⟨"_implicit_i2c_pullup_sensors", "pwr"⟩]]⟩

theorem lower_append_placed_busBoard :
    (∃ c, (busBoard "mcu" "sensors" "v3").ByHand c busBoardConnections busBoardAdditions
      [(busBoardPullup, busBoardPlacement)]) ∧
    ((busBoard "mcu" "sensors" "v3") ++
        placed busBoardConnections [(busBoardPullup, busBoardPlacement)]).lower .builtin {} =
      .ok (busBoardDesign "mcu" "sensors" "v3") := by
  have hplaced : (busBoard "mcu" "sensors" "v3").ByHand
      ((busBoard "mcu" "sensors" "v3").circuit .builtin) busBoardConnections busBoardAdditions
      [(busBoardPullup, busBoardPlacement)] := by
    refine ⟨rfl, rfl, eq_ok_of_toOption_eq_some (by decide +kernel), rfl, by decide, by decide,
      by simp [Placement.Inert, busBoardPlacement], ?_, ?_⟩
    · intro block hblock connection hconnection
      obtain rfl := List.mem_singleton.mp hblock
      cases hconnection
      rintro ⟨⟩
    · intro i connection _ _ r _ e he
      obtain ⟨hnode, -⟩ := Circuit.endpoint?_eq_some_iff.mp he
      rw [List.mem_singleton.mp (List.mem_of_getElem? hnode)]
      decide
  have hd : (busBoard "mcu" "sensors" "v3").lower .builtin {} =
      .ok (busBoardDesign "mcu" "sensors" "v3") := eq_ok_of_toOption_eq_some (by decide +kernel)
  exact ⟨⟨_, hplaced⟩, (lower_append_placed hplaced hd).2⟩

end Netlist

end Schematic
