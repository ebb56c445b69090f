import Schematic.Proofs.Netlist.Acceptable

namespace Schematic

/-- The code for values that an argument of the kind does not take. -/
def ArgumentKind.code : ArgumentKind → Code
  | int => .e0200
  | float => .e0201
  | range => .e0202
  | string => .e0203
  | array => .e0204
  | unknown _ => .e0205

/-- The codes of the diagnostics that a pass can give. -/
def Pass.codes : Pass → List Code
  | buildGraph => [.e0001, .e0002, .e0003]
  | aggregate => []
  | inferShape => [.e0300]
  | synthesizeConnectors => [.e0400, .e0401, .e0402]
  | inferImplicit => []
  | emit => [.e0100, .e0101, .e0102, .e0103, .e0104, .e0105, .e0106, .e0200, .e0201, .e0202, .e0203,
      .e0204, .e0205]

namespace Netlist

/-- What a diagnostic can be about. -/
inductive Element where
  | label (l : Label)
  | node (c : Component)
  | port (c : Component) (p : Port)
  | argument (c : Component) (a : Argument)

def Element.path : Element → List String
  | label l => [l.name]
  | node c => [c.name]
  | port c p => [c.name, p.name]
  | argument c a => [c.name, a.name]

/-- The element is one of the netlist. -/
def Element.In (n : Netlist) : Element → Prop
  | label l => l ∈ n.labels.map (·.2)
  | node c => c ∈ n.nodes.map (·.2)
  | port c p => c ∈ n.nodes.map (·.2) ∧ p ∈ c.ports
  | argument c a => c ∈ n.nodes.map (·.2) ∧ a ∈ c.arguments

/-- The block that a bus rule adds to a net has the name of a component, or the name of a block that
the same or another rule adds, to this net or another. -/
def SupportTaken (registry : Registry) (n : Netlist) (rule : BusRule) (net : String) : Prop :=
  (∃ e ∈ n.nodes, e.2.name = rule.supportStem ++ net) ∨
    ∃ (i j : Nat) (other : BusRule) (net' : String), registry.buses[i]? = some rule ∧
      registry.buses[j]? = some other ∧ ¬ (i = j ∧ net = net') ∧
      n.Supplied registry other net' ∧ rule.supportStem ++ net = other.supportStem ++ net'

/-- An element breaks the rule that a code stands for. -/
inductive Breaks (registry : Registry) (n : Netlist) : Code → Element → Prop where
  /-- A label stands on a component. -/
  | unknownNode {l : Label} (hnode : n.nodes.lookup l.node = none) :
    Breaks registry n .e0001 (.label l)
  /-- A label stands on a port that its component has. -/
  | unknownPort {l : Label} {c : Component} (hnode : n.nodes.lookup l.node = some c)
    (hport : c.ports.length ≤ l.port) : Breaks registry n .e0002 (.label l)
  /-- A slot belongs to a port of its component that is no slot. -/
  | slotParent {c : Component} {p : Port} {k : Nat} (hslot : p.slotOf = some k)
    (hparent : ¬ ∃ q, c.ports[k]? = some q ∧ q.slotOf = none) : Breaks registry n .e0003 (.port c p)
  /-- The ports under a name that are no slots are all arrays or all single. -/
  | mixedShape {l m : Label} {c d : Component} {p q : Port} (hl : n.Attached l c p)
    (hm : n.Attached m d q) (hname : m.name = l.name) (hp : p.slotOf = none) (hq : q.slotOf = none)
    (harray : p.isArray ≠ q.isArray) : Breaks registry n .e0300 (.label l)
  /-- A labelled port of a connector lies on no array. -/
  | pinOnArray {l : Label} {c : Component} {p : Port} (hl : n.Attached l c p)
    (hrole : registry.roleOf c.type c.superClasses = .connector) (harray : ¬ n.Scalar l.name) :
    Breaks registry n .e0400 (.port c p)
  /-- Some rule takes the types that a labelled port of a connector is wired to. -/
  | pinTypes {l : Label} {c : Component} {p : Port} (hl : n.Attached l c p)
    (hrole : registry.roleOf c.type c.superClasses = .connector)
    (htypes : ¬ ∃ rule ∈ registry.adaptRules, (∃ m d q, n.Beside l m d q) ∧
      ∀ m d q, n.Beside l m d q → q.type ∈ rule.accepts) : Breaks registry n .e0401 (.port c p)
  /-- A labelled port of a connector is named like a pin. -/
  | pinName {l : Label} {c : Component} {p : Port} (hl : n.Attached l c p)
    (hrole : registry.roleOf c.type c.superClasses = .connector)
    (hname : ¬ Wrapper.IsPinName p.name) : Breaks registry n .e0402 (.port c p)
  /-- Components have proper names. -/
  | blockName {c : Component} (hname : Text.isIdentifier c.name = false) :
    Breaks registry n .e0100 (.node c)
  /-- Components have proper classes. -/
  | blockClass {c : Component} (htype : Text.isIdentifier c.type = false) :
    Breaks registry n .e0101 (.node c)
  /-- Labelled ports have proper names. -/
  | portName {l : Label} {c : Component} {p : Port} (hl : n.Attached l c p)
    (hname : Text.isIdentifier p.name = false) : Breaks registry n .e0102 (.port c p)
  /-- Ports with labelled slots have proper names. -/
  | parentName {l : Label} {c : Component} {p q : Port} {k : Nat} (hl : n.Attached l c p)
    (hslot : p.slotOf = some k) (hparent : c.ports[k]? = some q)
    (hname : Text.isIdentifier q.name = false) : Breaks registry n .e0103 (.port c q)
  /-- Arguments that are written out have proper names. -/
  | argumentName {c : Component} {a : Argument} (hwritten : a.isExplicit = true)
    (hname : Text.isIdentifier a.name = false) : Breaks registry n .e0104 (.argument c a)
  /-- Arguments that are written out have values that their kinds take. -/
  | argumentValue {c : Component} {a : Argument} {v : Json} (hwritten : a.explicit? = some v)
    (hvalue : Argument.literal? a.kind v = none) : Breaks registry n a.kind.code (.argument c a)
  /-- A block that is added to a net has a proper name. -/
  | supportName {l : Label} {rule : BusRule} (hrule : rule ∈ registry.buses)
    (hadded : n.Supplied registry rule l.name)
    (hname : Text.isIdentifier (rule.supportStem ++ l.name) = false) :
    Breaks registry n .e0105 (.label l)
  /-- A block that is added to a net has a name of its own. -/
  | supportTaken {l : Label} {rule : BusRule} (hrule : rule ∈ registry.buses)
    (hadded : n.Supplied registry rule l.name) (htaken : n.SupportTaken registry rule l.name) :
    Breaks registry n .e0106 (.label l)

/-- A fault is true of a netlist: its diagnostic is about an element that breaks the rule, or it
names two labels on one port. -/
inductive Bears (registry : Registry) (n : Netlist) : Fault → Prop where
  | broken {f : Fault} {d : Diagnostic} {x : Element} (hproblem : f.problem = .invalid d)
    (hbreaks : n.Breaks registry d.code x) (hin : x.In n) (hpath : d.path = x.path) :
    Bears registry n f
  | shared {l m : Label} {c : Component} {p : Port} (hsome : [l, m].Sublist (n.labels.map (·.2)))
    (hl : n.Attached l c p) (hm : n.Attached m c p) (hsame : (l.node, l.port) = (m.node, m.port)) :
    Bears registry n (.duplicateLabel c.name p.name l.name m.name)

end Netlist

end Schematic
