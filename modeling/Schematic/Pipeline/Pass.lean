namespace Schematic

inductive Pass where
  | buildGraph
  | aggregate
  | inferShape
  | synthesizeConnectors
  | inferImplicit
  | emit
deriving DecidableEq, Repr

/-- What the passes make. -/
inductive Artifact where
  | graph
  | connections
  | shapes
  | connectors
  | implicit
  | declarations
deriving DecidableEq, Repr

namespace Pass

def name : Pass → String
  | buildGraph => "build_graph"
  | aggregate => "aggregate"
  | inferShape => "infer_shape"
  | synthesizeConnectors => "synthesize_connectors"
  | inferImplicit => "infer_implicit"
  | emit => "emit"

def all : List Pass :=
  [buildGraph, aggregate, inferShape, synthesizeConnectors, inferImplicit, emit]

def ofName? (s : String) : Option Pass :=
  all.find? (·.name == s)

/-- The passes that must have run. -/
def inputs : Pass → List Pass
  | buildGraph => []
  | aggregate => [buildGraph]
  | inferShape => [aggregate]
  | synthesizeConnectors => [inferShape]
  | inferImplicit => [aggregate]
  | emit => [synthesizeConnectors, inferImplicit]

def outputs : Pass → List Artifact
  | buildGraph => [.graph]
  | aggregate => [.connections]
  | inferShape => [.shapes]
  | synthesizeConnectors => [.connectors]
  | inferImplicit => [.implicit]
  | emit => [.declarations]

/-- What holds of the output of a pass. -/
def invariants : Pass → String
  | buildGraph => "label targets exist, slot parents are ports of the same node"
  | aggregate => "each labelled port owned by exactly one connection"
  | inferShape => "non-slot members of a connection agree on array-ness"
  | synthesizeConnectors => "every connected connector pin has an exposed type"
  | inferImplicit => "at most one support block per bus connection"
  | emit => "every emitted name is an identifier"

/-- Visits a pass after its inputs, each pass once; `depth` bounds the length of a chain of
inputs. -/
def visit : Nat → List Pass → Pass → List Pass
  | 0, done, _ => done
  | depth + 1, done, p =>
    if done.contains p then done else p.inputs.foldl (visit depth) done ++ [p]

/-- The passes to run for a pass, in order. -/
def required (p : Pass) : List Pass :=
  visit all.length [] p

end Pass

end Schematic
