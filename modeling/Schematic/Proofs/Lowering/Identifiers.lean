import Schematic.Proofs.Declaration.Unambiguous
import Schematic.Proofs.Lowering.Design
import Schematic.Proofs.Wrapper.PinNames

namespace Schematic

namespace Text

/-- An identifier that goes on with characters of identifiers is one. -/
theorem isIdentifier_append {name rest : String} (hname : isIdentifier name = true)
    (hrest : ∀ c ∈ rest.toList, continuesIdentifier c = true) :
    isIdentifier (name ++ rest) = true := by
  unfold isIdentifier at hname ⊢
  rw [String.toList_append]
  cases hchars : name.toList with
  | nil => simp [hchars] at hname
  | cons c cs =>
    rw [hchars, Bool.and_eq_true] at hname
    obtain ⟨hfirst, hcs⟩ := hname
    rw [List.cons_append, Bool.and_eq_true, List.all_append, Bool.and_eq_true]
    exact ⟨hfirst, hcs, List.all_eq_true.mpr hrest⟩

private theorem continuesIdentifier_digit {c : Char} (hc : '0' ≤ c ∧ c ≤ '9') :
    continuesIdentifier c = true := by
  have hnumeric : isNumeric c = true := by
    apply inRanges_iff.mpr
    refine ⟨(0x30, 0x39), List.mem_cons_self, ?_⟩
    obtain ⟨hlow, hhigh⟩ := hc
    rw [Char.le_def, UInt32.le_iff_toNat_le] at hlow hhigh
    exact ⟨hlow, hhigh⟩
  rw [continuesIdentifier, hnumeric, Bool.or_true]

end Text

open Text (isIdentifier)

theorem Wrapper.IsPinName.isIdentifier {name : String} (hname : IsPinName name) :
    isIdentifier name = true := by
  obtain ⟨ds, hchars, -, hdigits, -⟩ := hname
  have hsplit : name = "port_" ++ String.ofList ds := by
    apply String.toList_inj.mp
    rw [hchars, String.toList_append]
    exact congrArg _ String.toList_ofList.symm
  rw [hsplit]
  apply Text.isIdentifier_append (by decide +kernel)
  intro c hc
  rw [String.toList_ofList] at hc
  exact Text.continuesIdentifier_digit (hdigits c hc)

/-- The class of a wrapper is named by two identifiers with an underscore between them. -/
theorem Component.isIdentifier_wrapperClass {c : Component} (hname : isIdentifier c.name = true)
    (htype : isIdentifier c.type = true) : isIdentifier c.wrapperClass = true := by
  have hunderscore : ∀ ch ∈ "_".toList, Text.continuesIdentifier ch = true :=
    List.all_eq_true.mp (by decide +kernel)
  apply Text.isIdentifier_append
  · exact Text.isIdentifier_append htype hunderscore
  · exact Text.continuesIdentifier_of_isIdentifier hname

/-- The names that a registry can bring into a design are identifiers. -/
structure Registry.Proper (r : Registry) : Prop where
  exposes : ∀ rule ∈ r.adaptRules, isIdentifier rule.exposes = true
  supportClass : ∀ bus ∈ r.buses, isIdentifier bus.supportClass = true
  supportBusPort : ∀ bus ∈ r.buses, isIdentifier bus.supportBusPort = true
  supportPowerPort : ∀ bus ∈ r.buses, isIdentifier bus.supportPowerPort = true

theorem Registry.proper_builtin : builtin.Proper := by
  constructor <;> decide +kernel

theorem Argument.proper_written {arguments : List Argument}
    (hall : ∀ a ∈ arguments, a.isExplicit = true → a.Writable) :
    ∀ w ∈ written arguments, w.Proper := by
  intro w hw
  obtain ⟨⟨a, v⟩, hexplicit, rfl⟩ := List.mem_map.mp hw
  obtain ⟨b, hb, hpair⟩ := List.mem_filterMap.mp hexplicit
  obtain ⟨u, hu, hsame⟩ := Option.map_eq_some_iff.mp hpair
  obtain ⟨rfl, rfl⟩ := Prod.mk.inj hsame
  obtain ⟨hname, v, hvalue, hliteral⟩ := hall b hb (by rw [isExplicit, hu]; rfl)
  obtain ⟨text, htext⟩ := Option.isSome_iff_exists.mp hliteral
  rw [value_of_explicit? hu, Option.some.injEq] at hvalue
  refine ⟨hname, ?_⟩
  dsimp only
  rw [hvalue, htext]
  exact isLiteral_of_literal? htext

namespace Circuit

variable {registry : Registry} {c : Circuit}

theorem Node.proper_block {node : Node} (hnode : node.Writable) : node.block.Proper := by
  have hclass := Component.isIdentifier_wrapperClass hnode.name hnode.type
  unfold block
  split
  · exact ⟨hnode.name, hclass, nofun⟩
  · exact ⟨hnode.name, hnode.type, Argument.proper_written hnode.arguments⟩

/-- A pin is exposed under its own name, as a type that a rule of the registry names. -/
theorem PinFits.proper_export {net : String} {r : PortRef} {port : Port}
    (hfits : c.PinFits registry net r port) (hregistry : registry.Proper) :
    (Declaration.ofPin (c.pinAt registry net r port)).Proper := by
  obtain ⟨rule, hrule⟩ := Option.isSome_iff_exists.mp hfits.typed
  have hexposed : (c.pinAt registry net r port).exposed = rule.exposes := by
    rw [pinAt, hrule]
    rfl
  constructor
  · exact (Wrapper.pinNumber?_isSome_iff.mp hfits.named).isIdentifier
  · rw [Declaration.ofPin, hexposed]
    exact hregistry.exposes rule (List.mem_of_find?_eq_some hrule)

theorem Sound.pinFits_of_netOf? (hsound : c.Sound registry) {entry : Node × Nat}
    (hentry : entry ∈ c.nodes.zipIdx) (hrole : entry.1.role = .connector) {port : Port} {p : Nat}
    (hport : (port, p) ∈ entry.1.ports.zipIdx) {net : String}
    (hnet : c.netOf? ⟨entry.2, p⟩ = some net) : c.PinFits registry net ⟨entry.2, p⟩ port := by
  obtain ⟨l, hl, hname, htarget⟩ := mem_wired.mp (mem_wired_of_netOf? hnet)
  have he : c.endpoint? l.target = some ⟨entry.1, port⟩ := by
    rw [htarget]
    apply endpoint?_eq_some_iff.mpr
    exact ⟨List.mem_zipIdx_iff_getElem?.mp hentry, List.mem_zipIdx_iff_getElem?.mp hport⟩
  have hfits := hsound.pins l hl _ he hrole
  rwa [hname, htarget] at hfits

theorem Sound.proper_connectorOf? (hsound : c.Sound registry) (hregistry : registry.Proper)
    {entry : Node × Nat} (hentry : entry ∈ c.nodes.zipIdx) {x : Declaration.Connector}
    (hx : c.connectorOf? registry entry = some x) : x.Proper := by
  have hnode := hsound.nodes entry.1 (List.fst_mem_of_mem_zipIdx hentry)
  unfold connectorOf? at hx
  split at hx
  next hrole =>
    cases hx
    refine ⟨Component.isIdentifier_wrapperClass hnode.name hnode.type, hnode.type,
      Argument.proper_written hnode.arguments, ?_⟩
    intro e he
    obtain ⟨pin, hpin, rfl⟩ := List.mem_map.mp he
    obtain ⟨⟨port, p⟩, hport, hsome⟩ := List.mem_filterMap.mp hpin
    obtain ⟨net, hnet, rfl⟩ := Option.map_eq_some_iff.mp hsome
    exact (hsound.pinFits_of_netOf? hentry hrole hport hnet).proper_export hregistry
  next => cases hx

theorem Sound.proper_supply_block (hsound : c.Sound registry) (hregistry : registry.Proper)
    {s : Supply} (hs : s ∈ c.supplies registry) : s.block.Proper := by
  obtain ⟨-, hrule, -⟩ := mem_supplies.mp hs
  exact ⟨hsound.supplies.proper s hs, hregistry.supportClass _ hrule, nofun⟩

theorem Sound.proper_supply_member (hsound : c.Sound registry) (hregistry : registry.Proper)
    {s : Supply} (hs : s ∈ c.supplies registry) {net : String} {m : Support.Member}
    (hm : m ∈ s.membersOn net) : m.reference.Proper := by
  obtain ⟨-, hrule, -⟩ := mem_supplies.mp hs
  have hblock := hsound.supplies.proper s hs
  have hports := And.intro (hregistry.supportPowerPort _ hrule) (hregistry.supportBusPort _ hrule)
  have hcases : m = ⟨s.blockName, s.rule.supportPowerPort⟩ ∨
      m = ⟨s.blockName, s.rule.supportBusPort⟩ := by
    rcases List.mem_append.mp hm with hpower | hbus
    · exact .inl (List.mem_singleton.mp (List.mem_ite_nil_right.mp hpower).2)
    · exact .inr (List.mem_singleton.mp (List.mem_ite_nil_right.mp hbus).2)
  rcases hcases with rfl | rfl
  · exact List.forall_mem_cons.mpr ⟨hblock, List.forall_mem_singleton.mpr hports.1⟩
  · exact List.forall_mem_cons.mpr ⟨hblock, List.forall_mem_singleton.mpr hports.2⟩

theorem Sound.proper_reference (hsound : c.Sound registry) (hclosed : c.Closed) {net : String}
    {e : Endpoint} (he : e ∈ c.endpoints (c.wired net)) (isArray : Bool) :
    (e.reference isArray).Proper := by
  obtain ⟨r, hr, he⟩ := mem_endpoints.mp he
  obtain ⟨l, hl, -, rfl⟩ := mem_wired.mp hr
  obtain ⟨hnode, hport⟩ := endpoint?_eq_some_iff.mp he
  have hblock := (hsound.nodes e.node (List.mem_of_getElem? hnode)).name
  obtain ⟨hname, hparent⟩ := hsound.ports l hl e he
  unfold Endpoint.reference
  cases hslot : e.port.slotOf with
  | none => exact List.forall_mem_cons.mpr ⟨hblock, List.forall_mem_singleton.mpr hname⟩
  | some k =>
    -- The port that a slot belongs to exists, so that the name written for it is its name.
    obtain ⟨q, hq, -⟩ :=
      hclosed.slots e.node (List.mem_of_getElem? hnode) e.port (List.mem_of_getElem? hport) k hslot
    have hnames : ∀ name ∈ [e.node.name, q.name, e.port.name], isIdentifier name = true :=
      List.forall_mem_cons.mpr ⟨hblock, List.forall_mem_cons.mpr
        ⟨hparent k hslot q hq, List.forall_mem_singleton.mpr hname⟩⟩
    simp only [hq, Option.map_some, Option.getD_some]
    cases isArray with
    | true => exact hnames
    | false => exact hnames

end Circuit

namespace Netlist

/-- All names in the connectors, blocks and connects of an emitted design are identifiers, and the
values of arguments are literals, if the names that the registry brings in are identifiers. -/
theorem lower_proper :
    Registry.builtin.Proper ∧
      ∀ (registry : Registry) (header : ModuleHeader) (n : Netlist) (d : Declarations),
        registry.Proper → n.lower registry header = .ok d →
          (∀ c ∈ d.connectors, c.Proper) ∧ (∀ b ∈ d.blocks, b.Proper) ∧
            ∀ c ∈ d.connects, c.Proper := by
  refine ⟨Registry.proper_builtin, ?_⟩
  intro registry header n d hregistry hd
  obtain ⟨hn, hsound, rfl⟩ := lower_eq_ok_iff.mp hd
  refine ⟨?_, ?_, ?_⟩
  · intro x hx
    obtain ⟨entry, hentry, hx⟩ := List.mem_filterMap.mp hx
    exact hsound.proper_connectorOf? hregistry hentry hx
  · refine List.forall_mem_append.mpr ⟨?_, ?_⟩
    · exact List.forall_mem_map.mpr fun node hnode =>
        Circuit.Node.proper_block (hsound.nodes node hnode)
    · exact List.forall_mem_map.mpr fun s hs => hsound.proper_supply_block hregistry hs
  · intro x hx
    obtain ⟨net, -, rfl⟩ := List.mem_map.mp hx
    refine List.forall_mem_append.mpr ⟨?_, ?_⟩
    · exact List.forall_mem_map.mpr fun e he =>
        hsound.proper_reference (hn.closed registry) he _
    · refine List.forall_mem_map.mpr fun m hm => ?_
      obtain ⟨s, hs, hm⟩ := List.mem_flatMap.mp hm
      exact hsound.proper_supply_member hregistry hs hm

/-- A controller on a bus, powered through a header, that drives one of the header's pins from a
slot. -/
def breakoutBoard : Netlist where
  nodes := [
    ("m", {
      id := "m"
      name := "mcu"
      type := "Mcu"
      superClasses := []
      ports := [⟨"i2c", "I2cController", false, none⟩, ⟨"pwr", "VoltageSink", false, none⟩,
        ⟨"gpio", "DigitalBidir", true, none⟩, ⟨"led", "DigitalBidir", false, some 2⟩]
      arguments := [] }),
    ("j", {
      id := "j"
      name := "J1"
      type := "PinHeader254"
      superClasses := ["PassiveConnector"]
      ports := [⟨"port_0", "Passive", false, none⟩, ⟨"port_1", "Passive", false, none⟩]
      arguments := [⟨"length", .int, none, some (.bool true)⟩] })]
  labels := [("1", ⟨"bus", "m", 0⟩), ("2", ⟨"v", "m", 1⟩), ("3", ⟨"v", "j", 0⟩),
    ("4", ⟨"on", "m", 3⟩), ("5", ⟨"on", "j", 1⟩)]

/-- Names of all kinds: a wrapper and its exports, an argument, an added block, a slot. -/
def breakoutBoardDesign : Declarations where
  header := {}
  connectors := [⟨"PinHeader254_J1", "PinHeader254", [⟨"length", "1"⟩],
    [⟨"port_0", 1, "VoltageSource"⟩, ⟨"port_1", 2, "DigitalBidir"⟩]⟩]
  blocks := [⟨"mcu", "Mcu", []⟩, ⟨"J1", "PinHeader254_J1", []⟩,
    ⟨"_implicit_i2c_pullup_bus", "I2cPullup", []⟩]
  connects := [
    ⟨"bus", [.port "mcu" "i2c", .port "_implicit_i2c_pullup_bus" "i2c"]⟩,
    ⟨"v", [.port "mcu" "pwr", .port "J1" "port_0", .port "_implicit_i2c_pullup_bus" "pwr"]⟩,
    ⟨"on", [.request "mcu" "gpio" "led", .port "J1" "port_1"]⟩]

theorem lower_proper_breakoutBoard :
    Registry.builtin.Proper ∧ breakoutBoard.lower .builtin {} = .ok breakoutBoardDesign ∧
      (∀ c ∈ breakoutBoardDesign.connectors, c.Proper) ∧
      (∀ b ∈ breakoutBoardDesign.blocks, b.Proper) ∧
      ∀ c ∈ breakoutBoardDesign.connects, c.Proper := by
  have hd : breakoutBoard.lower .builtin {} = .ok breakoutBoardDesign :=
    eq_ok_of_toOption_eq_some (by decide +kernel)
  exact ⟨Registry.proper_builtin, hd, lower_proper.2 _ _ _ _ Registry.proper_builtin hd⟩

end Netlist

end Schematic
