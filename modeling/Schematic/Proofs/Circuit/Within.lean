import Schematic.Proofs.Declaration.Blocks
import Schematic.Proofs.Declaration.Connects

namespace Schematic

/-- The same port when a number of nodes is put before its own. -/
def PortRef.shift (k : Nat) (r : PortRef) : PortRef :=
  ⟨k + r.node, r.port⟩

theorem PortRef.shift_zero (r : PortRef) : r.shift 0 = r := by
  simp [shift]

theorem PortRef.shift_inj {k : Nat} {r s : PortRef} : r.shift k = s.shift k ↔ r = s := by
  obtain ⟨node, port⟩ := r
  obtain ⟨other, q⟩ := s
  simp [shift]

namespace Circuit

def Label.shift (k : Nat) (l : Label) : Label :=
  { l with target := l.target.shift k }

theorem Label.shift_zero (l : Label) : l.shift 0 = l := by
  rw [shift, PortRef.shift_zero]

/-- The nodes of a circuit stand in another one from a position on, with their ports on the same
nets. -/
structure Within (k : Nat) (a c : Circuit) : Prop where
  node : ∀ i node, a.nodes[i]? = some node → c.nodes[k + i]? = some node
  net : ∀ r : PortRef, r.node < a.nodes.length → c.netOf? (r.shift k) = a.netOf? r

namespace Within

variable {k : Nat} {a c : Circuit}

private theorem endpoint? (hin : a.Within k c) {r : PortRef} {e : Endpoint}
    (he : a.endpoint? r = some e) : c.endpoint? (r.shift k) = some e := by
  obtain ⟨hnode, hport⟩ := endpoint?_eq_some_iff.mp he
  exact endpoint?_eq_some_iff.mpr ⟨hin.node r.node e.node hnode, hport⟩

theorem endpoint?_eq (hin : a.Within k c) {r : PortRef} (hr : ∃ e, a.endpoint? r = some e) :
    c.endpoint? (r.shift k) = a.endpoint? r := by
  obtain ⟨e, he⟩ := hr
  rw [he, hin.endpoint? he]

/-- What is said of the ports of a circuit's labels is said of the same ports within the other. -/
theorem forall_labels_iff (hin : a.Within k c) (hclosed : a.Closed)
    (test other : String → PortRef → Endpoint → Prop)
    (hsame : ∀ net ∈ a.nets, ∀ r e, test net (r.shift k) e ↔ other net r e) :
    (∀ l ∈ a.labels.map (Label.shift k), ∀ e, c.endpoint? l.target = some e →
        test l.name l.target e) ↔
      ∀ l ∈ a.labels, ∀ e, a.endpoint? l.target = some e → other l.name l.target e := by
  rw [List.forall_mem_map]
  refine forall₂_congr fun l hl => forall_congr' fun e => ?_
  rw [Label.shift, hin.endpoint?_eq (hclosed.targets l hl)]
  exact imp_congr_right fun _ => hsame l.name (mem_nets.mpr ⟨l, hl, rfl⟩) l.target e

theorem endpoints_shift (hin : a.Within k c) (hclosed : a.Closed) (net : String) :
    c.endpoints ((a.wired net).map (PortRef.shift k)) = a.endpoints (a.wired net) := by
  rw [endpoints, endpoints, List.filterMap_map]
  exact List.filterMap_congr fun r hr => hin.endpoint?_eq (hclosed.exists_endpoint hr)

private theorem nodePowerNet?_eq (hin : a.Within k c) {i : Nat} (hi : i < a.nodes.length)
    (rule : BusRule) (node : Node) :
    c.nodePowerNet? rule node (k + i) = a.nodePowerNet? rule node i := by
  unfold nodePowerNet?
  congr 1
  funext name
  cases node.findPort? name with
  | none => rfl
  | some p => exact hin.net ⟨i, p⟩ hi

/-- Ports from outside that are no controllers do not change what powers a net. -/
theorem powerNet?_eq (hin : a.Within k c) (hclosed : a.Closed) {net : String} {rule : BusRule}
    {others : List PortRef} (hwired : c.wired net = (a.wired net).map (PortRef.shift k) ++ others)
    (hothers : ∀ e ∈ c.endpoints others, rule.isController e.port.type = false) :
    c.powerNet? rule net = a.powerNet? rule net := by
  have hnone : others.findSome? (fun m => (c.endpoint? m).bind fun e =>
      if rule.isController e.port.type then c.nodePowerNet? rule e.node m.node else none) =
        none := by
    rw [List.findSome?_eq_none_iff]
    intro m hm
    cases he : c.endpoint? m with
    | none => rfl
    | some e => simp [hothers e (mem_endpoints.mpr ⟨m, hm, he⟩)]
  -- So the first controller with power is found among the ports of `a`, if at all.
  rw [powerNet?, powerNet?, hwired, List.findSome?_append, hnone, Option.or_none,
    List.findSome?_map]
  refine findSome?_congr fun m hm => ?_
  obtain ⟨e, he⟩ := hclosed.exists_endpoint hm
  obtain ⟨hnode, -⟩ := endpoint?_eq_some_iff.mp he
  obtain ⟨hlt, -⟩ := List.getElem?_eq_some_iff.mp hnode
  rw [Function.comp_apply, hin.endpoint? he, he, Option.bind_some, Option.bind_some]
  split
  · exact hin.nodePowerNet?_eq hlt rule e.node
  · rfl

section

variable (hin : a.Within k c) (hclosed : a.Closed) {net : String}
  (hwired : c.wired net = (a.wired net).map (PortRef.shift k))

include hin hclosed hwired

private theorem endpoints_eq : c.endpoints (c.wired net) = a.endpoints (a.wired net) := by
  rw [hwired, hin.endpoints_shift hclosed]

theorem mem_endpoints_iff (e : Endpoint) :
    e ∈ c.endpoints (c.wired net) ↔ e ∈ a.endpoints (a.wired net) := by
  rw [hin.endpoints_eq hclosed hwired]

theorem uniform_iff : c.Uniform net ↔ a.Uniform net :=
  uniform_congr (hin.mem_endpoints_iff hclosed hwired)

private theorem carriesArray_eq : c.carriesArray net = a.carriesArray net :=
  carriesArray_congr (hin.mem_endpoints_iff hclosed hwired)

theorem supplyAt?_eq (rule : BusRule) : c.supplyAt? net rule = a.supplyAt? net rule := by
  have hneeds := needsSupport_congr (hin.mem_endpoints_iff hclosed hwired) rule
  have hpower := @powerNet?_eq k a c hin hclosed net rule [] (by rw [hwired, List.append_nil])
    (by simp [endpoints])
  rw [supplyAt?, supplyAt?, hneeds, hin.carriesArray_eq hclosed hwired, hpower]

theorem connectOf_eq {registry : Registry}
    (hmembers : (c.supplies registry).flatMap (fun s => s.membersOn net) =
      (a.supplies registry).flatMap fun s => s.membersOn net) :
    c.connectOf registry net = a.connectOf registry net := by
  rw [connectOf, connectOf, hin.endpoints_eq hclosed hwired, hin.carriesArray_eq hclosed hwired,
    hmembers]

theorem mem_typesBeside_shift_iff (r : PortRef) (t : String) :
    t ∈ c.typesBeside net (r.shift k) ↔ t ∈ a.typesBeside net r := by
  simp only [mem_typesBeside, hwired, List.mem_map, exists_exists_and_eq_and, ne_eq,
    PortRef.shift_inj]
  refine exists_congr fun s => and_congr_right fun hs => ?_
  rw [hin.endpoint?_eq (hclosed.exists_endpoint hs)]

theorem pinFits_shift_iff {registry : Registry} (r : PortRef) (port : Port) :
    c.PinFits registry net (r.shift k) port ↔ a.PinFits registry net r port :=
  pinFits_congr (hin.carriesArray_eq hclosed hwired)
    (hin.mem_typesBeside_shift_iff hclosed hwired r)

private theorem pinAt_shift {registry : Registry} (r : PortRef) (port : Port) :
    c.pinAt registry net (r.shift k) port = a.pinAt registry net r port :=
  pinAt_congr rfl (hin.mem_typesBeside_shift_iff hclosed hwired r)

end

private theorem pinsOf_eq (hin : a.Within k c) (hclosed : a.Closed) {registry : Registry}
    {node : Node} {i : Nat} (hi : i < a.nodes.length)
    (hnets : ∀ p net, a.netOf? ⟨i, p⟩ = some net →
      c.wired net = (a.wired net).map (PortRef.shift k)) :
    c.pinsOf registry (node, k + i) = a.pinsOf registry (node, i) := by
  refine List.filterMap_congr fun port _ => ?_
  have hnet : c.netOf? ⟨k + i, port.2⟩ = a.netOf? ⟨i, port.2⟩ := hin.net ⟨i, port.2⟩ hi
  simp only [hnet]
  refine Option.map_congr fun net hmem => ?_
  exact hin.pinAt_shift hclosed (hnets port.2 net hmem) ⟨i, port.2⟩ port.1

/-- The connectors of a circuit are wrapped alike within another one if their nets get no ports from
outside. -/
theorem connectors_eq (hin : a.Within k c) (hclosed : a.Closed) (registry : Registry)
    (hnets : ∀ i node p net, a.nodes[i]? = some node → node.role = .connector →
      a.netOf? ⟨i, p⟩ = some net → c.wired net = (a.wired net).map (PortRef.shift k)) :
    (a.nodes.zipIdx k).filterMap (c.connectorOf? registry) =
      a.nodes.zipIdx.filterMap (a.connectorOf? registry) := by
  rw [List.zipIdx_eq_map_add, List.filterMap_map]
  refine List.filterMap_congr fun entry hentry => ?_
  obtain ⟨node, i⟩ := entry
  have hnode : a.nodes[i]? = some node := List.mem_zipIdx_iff_getElem?.mp hentry
  obtain ⟨hi, -⟩ := List.getElem?_eq_some_iff.mp hnode
  change c.connectorOf? registry (node, k + i) = a.connectorOf? registry (node, i)
  unfold connectorOf?
  by_cases hrole : node.role = .connector
  · have hpins : c.pinsOf registry (node, k + i) = a.pinsOf registry (node, i) :=
      hin.pinsOf_eq hclosed hi fun p net hnet => hnets i node p net hnode hrole hnet
    rw [if_pos hrole, if_pos hrole, hpins]
  · rw [if_neg hrole, if_neg hrole]

end Within

end Circuit

end Schematic
