import Mathlib.Algebra.BigOperators.Group.List.Lemmas
import Schematic.Proofs.Lowering.LabelOrder
import Schematic.Proofs.Netlist.Attached

namespace Schematic

/-- The names that a port is referred to with: those of the component, of the port that it is a slot
of, if any, and its own. -/
def Component.namesOf? (c : Component) (k : Nat) : Option (List String) := do
  let p ← c.ports[k]?
  match p.slotOf with
  | none => return [c.name, p.name]
  | some parent => return [c.name, (← c.ports[parent]?).name, p.name]

theorem Endpoint.names_reference {e : Endpoint} {k : Nat} (hslots : e.node.SlotsSound)
    (hport : e.node.ports[k]? = some e.port) (isArray : Bool) :
    some (e.reference isArray).names = e.node.namesOf? k := by
  rw [Component.namesOf?, hport, reference]
  cases hslot : e.port.slotOf with
  | none => simp [Declaration.Expression.names, hslot]
  | some parent =>
    obtain ⟨q, hq, -⟩ := hslots e.port (List.mem_of_getElem? hport) parent hslot
    cases isArray <;> simp [Declaration.Expression.names, hslot, hq]

namespace Netlist

/-- The labels with a name, in their order. -/
def labelsOn (n : Netlist) (net : String) : List Label :=
  (n.labels.map (·.2)).filter (·.name == net)

/-- The names that the port of a label is referred to with. -/
def namesOf? (n : Netlist) (l : Label) : Option (List String) :=
  (n.nodes.lookup l.node).bind (·.namesOf? l.port)

variable {registry : Registry} {header : ModuleHeader} {n : Netlist} {d : Declarations}

theorem Attached.names_reference {l : Label} {c : Component} {p : Port} (hl : n.Attached l c p)
    (hn : n.Resolvable) (isArray : Bool) :
    some ((endpointOf registry l c p).reference isArray).names = n.namesOf? l := by
  have hslots : c.SlotsSound :=
    hn.slots _ (List.mem_of_getElem? (Circuit.getElem?_findIdx_key hl.node))
  rw [Endpoint.names_reference hslots hl.port, namesOf?, hl.node, Option.bind_some]
  rfl

/-- The references to the ports on a net, by their names, are those of its labels in order. -/
theorem Resolvable.map_names_endpoints (hn : n.Resolvable) (net : String) (isArray : Bool) :
    ((n.circuit registry).endpoints ((n.circuit registry).wired net)).map
      (fun e => some (e.reference isArray).names) = (n.labelsOn net).map n.namesOf? := by
  rw [endpoints_wired_circuit, labelsOn, List.filter_map, List.map_map, List.map_filterMap]
  rw [← List.filterMap_eq_map]
  refine List.filterMap_congr fun entry hentry => ?_
  obtain ⟨c, p, hl⟩ := hn.attached (List.mem_map_of_mem (List.mem_of_mem_filter hentry))
  rw [hl.endpoint?, Option.map_some, hl.names_reference hn]
  rfl

/-- A label stands on one net, so that the nets together have as many labels as there are. -/
theorem length_flatMap_labelsOn (n : Netlist) :
    ((n.labels.map (·.2.name)).eraseDups.flatMap n.labelsOn).length = n.labels.length := by
  have hcount : ∀ net, (n.labelsOn net).length = (n.labels.map (·.2.name)).count net := by
    intro net
    rw [labelsOn, ← List.countP_eq_length_filter, List.countP_map, List.count, List.countP_map]
    rfl
  have hnets : (n.labels.map (·.2.name)).eraseDups.Perm (n.labels.map (·.2.name)).dedup := by
    rw [List.perm_ext_iff_of_nodup (nodup_eraseDups _) (List.nodup_dedup _)]
    simp [List.mem_eraseDups]
  rw [List.length_flatMap]
  simp only [hcount]
  rw [(hnets.map _).sum_eq, List.sum_map_count_dedup_eq_length, List.length_map]

private theorem map_names_ownMembers (hd : n.lower registry header = .ok d)
    {x : Declaration.Connect} (hx : x ∈ d.connects) :
    (n.ownMembers x).map (fun m => some m.names) = (n.labelsOn x.label).map n.namesOf? := by
  obtain ⟨hn, hsound, rfl⟩ := lower_eq_ok_iff.mp hd
  obtain ⟨net, -, rfl⟩ := List.mem_map.mp hx
  rw [ownMembers_connectOf hsound.supplies, List.map_map]
  exact hn.map_names_endpoints net _

private theorem map_label_connects (hd : n.lower registry header = .ok d) :
    d.connects.map (·.label) = (n.labels.map (·.2.name)).eraseDups := by
  obtain ⟨-, -, rfl⟩ := lower_eq_ok_iff.mp hd
  rw [Circuit.map_label_connects_design, Circuit.nets, circuit, List.map_map]
  rfl

/-- Lowering keeps every labelled port: there is a connect for each name of a label, in the order of
their first labels; its members are a reference for each of its labels, in label order, by the names
of what the label stands on, and then those that were planned for it. -/
theorem lower_connects_labels (hd : n.lower registry header = .ok d) :
    d.connects.map (·.label) = (n.labels.map (·.2.name)).eraseDups ∧
      (∃ c cs a, Circuit.ofNetlist registry n = .ok c ∧ Connections.ofCircuit c = .ok cs ∧
        Support.plan registry c cs = .ok a ∧ ∀ x i, (x, i) ∈ d.connects.zipIdx →
          x.members = n.ownMembers x ++ (a.membersOf i).map (·.reference) ∧
            (n.ownMembers x).map (fun m => some m.names) = (n.labelsOn x.label).map n.namesOf?) ∧
      (d.connects.flatMap n.ownMembers).length = n.labels.length := by
  have hlabels := map_label_connects hd
  have hnames := fun x (hx : x ∈ d.connects) => map_names_ownMembers hd hx
  refine ⟨hlabels, ?_, ?_⟩
  · obtain ⟨hn, hsound, rfl⟩ := lower_eq_ok_iff.mp hd
    obtain ⟨a, ha, hsupplied, -⟩ :=
      Support.plan_connections (hn.closed registry) hsound.uniform registry
    refine ⟨_, _, a, ofNetlist_of_lower hd,
      Connections.ofCircuit_eq_ok_iff.mpr ⟨hsound.unshared, rfl⟩, ha, fun x i hx => ?_⟩
    refine ⟨?_, hnames x (List.fst_mem_of_mem_zipIdx hx)⟩
    rw [List.mem_zipIdx_iff_getElem?] at hx
    simp only [Circuit.design, List.getElem?_map, Option.map_eq_some_iff] at hx
    obtain ⟨net, hnet, rfl⟩ := hx
    obtain rfl := Circuit.idxOf_nets_of_getElem? hnet
    rw [ownMembers_connectOf hsound.supplies, hsupplied.members]
    rfl
  · have hlength : ∀ x ∈ d.connects, (n.ownMembers x).length = (n.labelsOn x.label).length := by
      intro x hx
      have hsame := congrArg List.length (hnames x hx)
      rwa [List.length_map, List.length_map] at hsame
    rw [← length_flatMap_labelsOn, ← hlabels, List.flatMap_map, List.length_flatMap,
      List.length_flatMap, List.map_congr_left hlength]

/-- A controller on a bus and a lamp on one of its pins, with the labels of their nets in turn. -/
def lampBoard : Netlist where
  nodes := [
    ("m", {
      id := "m"
      name := "mcu"
      type := "Mcu"
      superClasses := []
      ports := [⟨"i2c", "I2cController", false, none⟩, ⟨"pwr", "VoltageSink", false, none⟩,
        ⟨"gpio", "DigitalBidir", true, none⟩, ⟨"led", "DigitalBidir", false, some 2⟩]
      arguments := [] }),
    ("l", {
      id := "l"
      name := "lamp"
      type := "IndicatorLed"
      superClasses := []
      ports := [⟨"signal", "DigitalSink", false, none⟩, ⟨"pwr", "VoltageSink", false, none⟩]
      arguments := [] })]
  labels := [("1", ⟨"on", "m", 3⟩), ("2", ⟨"v", "l", 1⟩), ("3", ⟨"bus", "m", 0⟩),
    ("4", ⟨"on", "l", 0⟩), ("5", ⟨"v", "m", 1⟩)]

/-- There are five references for the labels, and two to the ports of an added block. -/
theorem lower_connects_labels_lampBoard :
    ∃ d, lampBoard.lower .builtin {} = .ok d ∧
      d.connects = [
        ⟨"on", [.request "mcu" "gpio" "led", .port "lamp" "signal"]⟩,
        ⟨"v", [.port "lamp" "pwr", .port "mcu" "pwr", .port "_implicit_i2c_pullup_bus" "pwr"]⟩,
        ⟨"bus", [.port "mcu" "i2c", .port "_implicit_i2c_pullup_bus" "i2c"]⟩] ∧
      (∃ c cs a, Circuit.ofNetlist .builtin lampBoard = .ok c ∧ Connections.ofCircuit c = .ok cs ∧
        Support.plan .builtin c cs = .ok a ∧ ∀ x i, (x, i) ∈ d.connects.zipIdx →
          x.members = lampBoard.ownMembers x ++ (a.membersOf i).map (·.reference)) ∧
      (d.connects.flatMap lampBoard.ownMembers).length = 5 := by
  have hd : lampBoard.lower .builtin {} = .ok {
      header := {}
      connectors := []
      blocks := [⟨"mcu", "Mcu", []⟩, ⟨"lamp", "IndicatorLed", []⟩,
        ⟨"_implicit_i2c_pullup_bus", "I2cPullup", []⟩]
      connects := [
        ⟨"on", [.request "mcu" "gpio" "led", .port "lamp" "signal"]⟩,
        ⟨"v", [.port "lamp" "pwr", .port "mcu" "pwr", .port "_implicit_i2c_pullup_bus" "pwr"]⟩,
        ⟨"bus", [.port "mcu" "i2c", .port "_implicit_i2c_pullup_bus" "i2c"]⟩] } :=
    eq_ok_of_toOption_eq_some (by decide +kernel)
  obtain ⟨-, ⟨c, cs, a, hc, hcs, ha, hmembers⟩, hcount⟩ := lower_connects_labels hd
  exact ⟨_, hd, rfl, ⟨c, cs, a, hc, hcs, ha, fun x i hx => (hmembers x i hx).1⟩, hcount⟩

end Netlist

end Schematic
