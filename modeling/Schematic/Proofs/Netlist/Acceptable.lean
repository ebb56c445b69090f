import Schematic.Proofs.Lowering.Design
import Schematic.Proofs.Netlist.Attached
import Schematic.Proofs.Wrapper.PinNames

namespace Schematic

namespace Netlist

/-- The ports under a name that are no slots are all arrays or all single. -/
def Uniform (n : Netlist) : Prop :=
  ∀ l c p, n.Attached l c p → ∀ m d q, n.Attached m d q → l.name = m.name →
    p.slotOf = none → q.slotOf = none → p.isArray = q.isArray

/-- No port under a name is an array, slots left aside. -/
def Scalar (n : Netlist) (net : String) : Prop :=
  ∀ l c p, n.Attached l c p → l.name = net → p.slotOf = none → p.isArray = false

/-- Another label of the same name as `l` stands on a port of some component. -/
structure Beside (n : Netlist) (l m : Label) (d : Component) (q : Port) : Prop where
  attached : n.Attached m d q
  name : m.name = l.name
  other : (m.node, m.port) ≠ (l.node, l.port)

/-- A labelled port of a connector can be a pin. -/
structure PinAccepted (registry : Registry) (n : Netlist) (l : Label) (p : Port) : Prop where
  named : Wrapper.IsPinName p.name
  scalar : n.Scalar l.name
  typed : ∃ rule ∈ registry.adaptRules, (∃ m d q, n.Beside l m d q) ∧
    ∀ m d q, n.Beside l m d q → q.type ∈ rule.accepts

/-- A bus rule adds a support block to a net: the net carries the bus, has no support block and no
array on it, and some controller on it has a labelled power port. -/
structure Supplied (registry : Registry) (n : Netlist) (rule : BusRule) (net : String) : Prop where
  carried : ∃ l c p, n.Attached l c p ∧ l.name = net ∧
    (p.type ∈ rule.controllerTypes ∨ p.type ∈ rule.targetTypes)
  unsupported : ∀ l c p, n.Attached l c p → l.name = net →
    registry.roleOf c.type c.superClasses ≠ .support rule.kind
  scalar : n.Scalar net
  powered : ∃ l c p, n.Attached l c p ∧ l.name = net ∧ p.type ∈ rule.controllerTypes ∧
    ∃ name ∈ rule.controllerPowerPorts, ∃ k, c.findPort? name = some k ∧
      ∃ m ∈ n.labels.map (·.2), m.node = l.node ∧ m.port = k

/-- All the rules together. -/
structure Acceptable (registry : Registry) (n : Netlist) : Prop where
  slots : ∀ e ∈ n.nodes, ∀ p ∈ e.2.ports, ∀ k, p.slotOf = some k →
    ∃ q, e.2.ports[k]? = some q ∧ q.slotOf = none
  targets : ∀ e ∈ n.labels, ∃ c, n.nodes.lookup e.2.node = some c ∧ e.2.port < c.ports.length
  unshared : (n.labels.map fun e => (e.2.node, e.2.port)).Nodup
  uniform : n.Uniform
  pins : ∀ l c p, n.Attached l c p → registry.roleOf c.type c.superClasses = .connector →
    n.PinAccepted registry l p
  components : ∀ e ∈ n.nodes, e.2.Writable
  ports : ∀ l c p, n.Attached l c p → p.Named c.ports
  supports : ∀ rule ∈ registry.buses, ∀ net, n.Supplied registry rule net →
    Text.isIdentifier (rule.supportStem ++ net) = true ∧
      ∀ e ∈ n.nodes, e.2.name ≠ rule.supportStem ++ net
  supportsDistinct : ∀ (i j : Nat) rule other net net', registry.buses[i]? = some rule →
    registry.buses[j]? = some other → n.Supplied registry rule net →
    n.Supplied registry other net' →
    rule.supportStem ++ net = other.supportStem ++ net' → i = j ∧ net = net'

end Netlist

end Schematic
