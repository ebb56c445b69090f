import Schematic.Proofs.Declaration.Blocks
import Schematic.Proofs.Pipeline.Stages

namespace Schematic

/-- What is checked of a circuit whose references all lead somewhere. -/
@[mk_iff] structure Circuit.Sound (registry : Registry) (c : Circuit) : Prop where
  unshared : c.Unshared
  uniform : ∀ net ∈ c.nets, c.Uniform net
  pins : c.PinsFit registry
  nodes : ∀ node ∈ c.nodes, node.Writable
  supplies : c.SuppliesNamed registry
  ports : c.PortsNamed

/-- The declarations of a circuit, whether or not it is sound. -/
def Circuit.design (registry : Registry) (header : ModuleHeader) (c : Circuit) : Declarations where
  header
  connectors := c.nodes.zipIdx.filterMap (c.connectorOf? registry)
  blocks := c.nodes.map (·.block) ++ (c.supplies registry).map (·.block)
  connects := c.nets.map (c.connectOf registry)

theorem Circuit.map_name_blocks_design {registry : Registry} {header : ModuleHeader} {c : Circuit} :
    (c.design registry header).blocks.map (·.name) = c.blockNames registry := by
  simp only [design, blockNames, supportNames, List.map_append, List.map_map, Function.comp_def,
    Node.block_name]
  rfl

theorem Circuit.map_label_connects_design {registry : Registry} {header : ModuleHeader}
    {c : Circuit} : (c.design registry header).connects.map (·.label) = c.nets := by
  simp only [design, connectOf, List.map_map, Function.comp_def, List.map_id']

theorem Declarations.ofCircuit_eq_ok_iff {registry : Registry} (header : ModuleHeader) {c : Circuit}
    (hclosed : c.Closed) (huniform : ∀ net ∈ c.nets, c.Uniform net) {a : Support.Additions}
    (ha : a.Supplied registry c) {d : Declarations} :
    ofCircuit c c.connections ((Wrapper.connectors c).map (c.wrapperAt registry)) a header = .ok d ↔
      (∀ node ∈ c.nodes, node.Writable) ∧ c.SuppliesNamed registry ∧ c.PortsNamed ∧
        d = c.design registry header := by
  simp only [ofCircuit_eq, bind_eq_ok_iff, pure_eq_ok_iff, Declaration.placeBlocks_eq_ok_iff ha,
    Declaration.mapM_ofConnection_eq_ok_iff hclosed huniform ha]
  constructor
  · rintro ⟨_, ⟨hnodes, hsupplies, rfl⟩, _, ⟨hports, rfl⟩, rfl⟩
    exact ⟨hnodes, hsupplies, hports, rfl⟩
  · rintro ⟨hnodes, hsupplies, hports, rfl⟩
    exact ⟨_, ⟨hnodes, hsupplies, rfl⟩, _, ⟨hports, rfl⟩, rfl⟩

/-- Lowering does the checks of all passes and gives the design of the resolved circuit. -/
theorem Netlist.lower_eq_ok_iff {registry : Registry} {header : ModuleHeader} {n : Netlist}
    {d : Declarations} :
    n.lower registry header = .ok d ↔
      n.Resolvable ∧ (n.circuit registry).Sound registry ∧
        d = (n.circuit registry).design registry header := by
  simp only [lower_eq_stages, stages, Circuit.stages, mapError_eq_ok_iff, bind_eq_ok_iff,
    Circuit.ofNetlist_eq_ok_iff, Connections.ofCircuit_eq_ok_iff]
  constructor
  · rintro ⟨_, ⟨hn, rfl⟩, _, ⟨hshared, rfl⟩, _, hshapes, ws, hws, a, ha, hd⟩
    have hclosed := hn.closed registry
    have huniform := (Connections.checkShapes_connections_eq_ok_iff hclosed).mp hshapes
    obtain ⟨hpins, rfl⟩ := (Wrapper.wrapAll_eq_ok_iff hclosed hshared huniform).mp hws
    obtain ⟨_, ha', hsupplied, -⟩ := Support.plan_connections hclosed huniform registry
    cases ha.symm.trans ha'
    obtain ⟨hnodes, hsupplies, hports, rfl⟩ :=
      (Declarations.ofCircuit_eq_ok_iff header hclosed huniform hsupplied).mp hd
    exact ⟨hn, ⟨hshared, huniform, hpins, hnodes, hsupplies, hports⟩, rfl⟩
  · rintro ⟨hn, ⟨hshared, huniform, hpins, hnodes, hsupplies, hports⟩, rfl⟩
    have hclosed := hn.closed registry
    have hshapes := (Connections.checkShapes_connections_eq_ok_iff hclosed).mpr huniform
    have hws := (Wrapper.wrapAll_eq_ok_iff hclosed hshared huniform).mpr ⟨hpins, rfl⟩
    obtain ⟨a, ha, hsupplied, -⟩ := Support.plan_connections hclosed huniform registry
    have hd := (Declarations.ofCircuit_eq_ok_iff header hclosed huniform hsupplied).mpr
      ⟨hnodes, hsupplies, hports, rfl⟩
    exact ⟨_, ⟨hn, rfl⟩, _, ⟨hshared, rfl⟩, (), hshapes, _, hws, a, ha, hd⟩

theorem Netlist.ofNetlist_of_lower {registry : Registry} {header : ModuleHeader} {n : Netlist}
    {d : Declarations} (hd : n.lower registry header = .ok d) :
    Circuit.ofNetlist registry n = .ok (n.circuit registry) :=
  Circuit.ofNetlist_eq_ok_iff.mpr ⟨(lower_eq_ok_iff.mp hd).1, rfl⟩

namespace Netlist

/-- The blocks of a design that belong to the components of its netlist. -/
def nodeBlocks (n : Netlist) (d : Declarations) : List Declaration.Block :=
  d.blocks.take n.nodes.length

/-- The blocks of a design that were added to those of its netlist. -/
def addedBlocks (n : Netlist) (d : Declarations) : List Declaration.Block :=
  d.blocks.drop n.nodes.length

variable (registry : Registry) (header : ModuleHeader) (n : Netlist)

theorem nodeBlocks_design :
    n.nodeBlocks ((n.circuit registry).design registry header) =
      (n.circuit registry).nodes.map (·.block) :=
  List.take_left' (by simp [circuit])

theorem addedBlocks_design :
    n.addedBlocks ((n.circuit registry).design registry header) =
      ((n.circuit registry).supplies registry).map (·.block) :=
  List.drop_left' (by simp [circuit])

theorem map_name_addedBlocks_design :
    (n.addedBlocks ((n.circuit registry).design registry header)).map (·.name) =
      (n.circuit registry).supportNames registry := by
  rw [addedBlocks_design, List.map_map]
  rfl

/-- A netlist with one controller, which is on a bus and powered from another net. -/
def busBoard (key bus power : String) : Netlist where
  nodes := [(key, {
    id := key
    name := key
    type := "Mcu"
    superClasses := []
    ports := [⟨"i2c", "I2cController", false, none⟩, ⟨"pwr", "VoltageSink", false, none⟩]
    arguments := [] })]
  labels := [(bus, ⟨bus, key, 0⟩), (power, ⟨power, key, 1⟩)]

/-- The design of the board, to which a support block is added. -/
def busBoardDesign (key bus power : String) : Declarations where
  header := {}
  connectors := []
  blocks := [⟨key, "Mcu", []⟩, ⟨"_implicit_i2c_pullup_" ++ bus, "I2cPullup", []⟩]
  connects := [
    ⟨bus, [.port key "i2c", .port ("_implicit_i2c_pullup_" ++ bus) "i2c"]⟩,
    ⟨power, [.port key "pwr", .port ("_implicit_i2c_pullup_" ++ bus) "pwr"]⟩]

end Netlist

end Schematic
