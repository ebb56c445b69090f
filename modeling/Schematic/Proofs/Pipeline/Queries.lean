import Schematic.Pipeline.Session
import Schematic.Proofs.Pipeline.Forgetting
import Schematic.Proofs.Pipeline.Visits

namespace Schematic

/-- What can be asked of a session about its connections. A query brings all that it needs beside
the circuit and the connections. -/
inductive Query where
  | shape (name : String)
  | isArray (name : String)
  | listing
  | checkShapes
  | wrapAll (registry : Registry)
  | plan (registry : Registry)
  | emit (wrappers : List Wrapper) (additions : Support.Additions) (header : ModuleHeader)

inductive Answer where
  | shape (found : Option Shape)
  | isArray (found : Option Bool)
  | listing (text : String)
  | checkShapes
  | wrapAll (wrappers : List Wrapper)
  | plan (additions : Support.Additions)
  | emit (declarations : Declarations)
deriving DecidableEq

namespace Query

/-- The inquiry that a query makes. -/
def inquiry (circuit : Circuit) (cs : Connections) : Query → Inquiry Answer
  | shape name => .shape <$> cs.about name .shape
  | isArray name => .isArray <$> cs.about name .isArray
  | listing => .listing <$> cs.describing circuit
  | checkShapes => (fun _ => .checkShapes) <$> cs.checking
  | wrapAll registry => .wrapAll <$> Wrapper.wrapping registry circuit cs
  | plan registry => .plan <$> Support.planning registry circuit cs
  | emit wrappers additions header =>
    .emit <$> Declarations.emitting circuit cs wrappers additions header

/-- The answer to a query if each question for a shape is answered by a given one. -/
def answer (circuit : Circuit) (cs : Connections) (shapes : Nat → Except Fault Shape) (q : Query) :
    Except Fault Answer :=
  (q.inquiry circuit cs).result shapes

/-- The connections whose shapes a query asks for, in the order in which it comes to them. It stops
at what fails. -/
def visits (circuit : Circuit) (cs : Connections) : Query → List Nat
  | shape name | isArray name => (cs.byName.lookup name).toList
  | checkShapes => (visited (fun e => e.1.shape circuit) cs.list.zipIdx).map (·.2)
  | listing => (visited (fun e => e.1.members.mapM circuit.endpoint) cs.list.zipIdx).map (·.2)
  | wrapAll registry =>
    ((visited (Wrapper.adapt registry circuit cs) (Wrapper.sites circuit cs)).filter fun s =>
      (Wrapper.pinNumber? s.port.name).isSome).map (·.connectionId)
  | plan registry =>
    ((visited (Support.Trial.judge circuit cs) (Support.trials registry cs)).filter
      (Support.Trial.asks circuit)).map (·.connectionId)
  | emit wrappers additions _ =>
    if (Declaration.placeBlocks circuit cs wrappers additions).isOk then
      (visited (Declaration.ofConnection circuit cs additions) cs.list.zipIdx).map (·.2)
    else []

private theorem asked_inquiry {cs : Connections} (hcs : cs.Indexed) (circuit : Circuit)
    (q : Query) :
    (q.inquiry circuit cs).asked (cs.answers circuit) = q.visits circuit cs := by
  cases q with
  | shape name =>
    rw [inquiry, Inquiry.asked_map, Connections.asked_about hcs name Inquiry.asked_shape, visits]
  | isArray name =>
    rw [inquiry, Inquiry.asked_map, Connections.asked_about hcs name Inquiry.asked_isArray, visits]
  | listing => rw [inquiry, Inquiry.asked_map, Connections.asked_describing, visits]
  | checkShapes => rw [inquiry, Inquiry.asked_map, Connections.asked_checking, visits]
  | wrapAll registry => rw [inquiry, Inquiry.asked_map, Wrapper.asked_wrapping hcs, visits]
  | plan registry => rw [inquiry, Inquiry.asked_map, Support.asked_planning hcs, visits]
  | emit wrappers additions header =>
    rw [inquiry, Inquiry.asked_map, Declarations.asked_emitting, visits]

/-- What a query does depends on what is known only through the answers. -/
theorem inquiry_forget (circuit : Circuit) (cs : Connections) (q : Query) :
    q.inquiry circuit cs.forget = q.inquiry circuit cs := by
  cases q with
  | shape name => rw [inquiry, inquiry, Connections.about_forget]
  | isArray name => rw [inquiry, inquiry, Connections.about_forget]
  | listing => rw [inquiry, inquiry, Connections.describing_forget]
  | checkShapes => rw [inquiry, inquiry, Connections.checking_forget]
  | wrapAll registry => rw [inquiry, inquiry, Wrapper.wrapping_forget]
  | plan registry => rw [inquiry, inquiry, Support.planning_forget]
  | emit wrappers additions header => rw [inquiry, inquiry, Declarations.emitting_forget]

end Query

namespace Session

/-- Asks a session. -/
def ask (s : Session) : Query → Except Fault Answer × Session
  | .shape name => (s.shapeOf? name).map (Except.map .shape) id
  | .isArray name => (s.isArray? name).map (Except.map .isArray) id
  | .listing => s.listing.map (Except.map .listing) id
  | .checkShapes => s.checkShapes.map (Except.map fun _ => .checkShapes) id
  | .wrapAll registry => { s with registry }.wrapAll.map (Except.map .wrapAll) id
  | .plan registry => { s with registry }.plan.map (Except.map .plan) id
  | .emit wrappers additions header =>
    { s with wrappers, additions, header }.emit.map (Except.map .emit) id

/-- A query is answered from what the connections know, and of what queries look at it changes only
what is known of the connections that it asks for. -/
theorem ask_spec (s : Session) (q : Query) :
    (s.ask q).1 = q.answer s.circuit s.connections (s.connections.answers s.circuit) ∧
      (s.ask q).2.circuit = s.circuit ∧
      (s.ask q).2.connections = s.connections.remember s.circuit
        ((q.inquiry s.circuit s.connections).asked (s.connections.answers s.circuit)) := by
  cases q with
  | shape name | isArray name | listing | checkShapes | emit wrappers additions header =>
    rw [Query.answer, Query.inquiry, Inquiry.result_map, Inquiry.asked_map]
    simp only [ask, shapeOf?, isArray?, listing, checkShapes, emit, inquire, Inquiry.run_eq]
    exact ⟨rfl, rfl, rfl⟩
  | wrapAll registry =>
    rw [Query.answer, Query.inquiry, Inquiry.result_map, Inquiry.asked_map]
    simp only [ask, wrapAll, inquire, Inquiry.run_eq]
    cases (Wrapper.wrapping registry s.circuit s.connections).result
      (s.connections.answers s.circuit) <;> exact ⟨rfl, rfl, rfl⟩
  | plan registry =>
    rw [Query.answer, Query.inquiry, Inquiry.result_map, Inquiry.asked_map]
    simp only [ask, plan, inquire, Inquiry.run_eq]
    cases (Support.planning registry s.circuit s.connections).result
      (s.connections.answers s.circuit) <;> exact ⟨rfl, rfl, rfl⟩

/-- The answers to queries that are asked one after another. -/
def answers (s : Session) : List Query → List (Except Fault Answer)
  | [] => []
  | q :: rest => (s.ask q).1 :: (s.ask q).2.answers rest

/-- The invariant of a row of queries is that the connections know nothing but true shapes. -/
theorem answers_of_faithful {queries : List Query} {s : Session}
    (hs : s.connections.Faithful s.circuit) :
    s.answers queries = queries.map (Query.answer s.circuit s.connections
      (s.connections.shapesIn s.circuit)) := by
  induction queries generalizing s with
  | nil => rfl
  | cons q rest ih =>
    obtain ⟨hanswer, hcircuit, hconnections⟩ := s.ask_spec q
    have hafter : (s.ask q).2.connections.Faithful (s.ask q).2.circuit := by
      rw [hcircuit, hconnections]
      exact hs.remember _
    have hforget : (s.ask q).2.connections.forget = s.connections.forget := by
      rw [hconnections, Connections.forget_remember]
    have hsame : Query.answer s.circuit (s.ask q).2.connections
        ((s.ask q).2.connections.shapesIn s.circuit) =
          Query.answer s.circuit s.connections (s.connections.shapesIn s.circuit) := by
      funext q'
      rw [Query.answer, Query.answer, ← Query.inquiry_forget, ← Connections.shapesIn_forget,
        hforget, Query.inquiry_forget, Connections.shapesIn_forget]
    rw [answers, ih hafter, hanswer, hs.answers_eq, hcircuit, hsame, List.map_cons]

/-- What is done with a session. -/
inductive Action where
  | edit (f : Circuit → Circuit)
  | ask (q : Query)

def act (s : Session) : Action → Session
  | .edit f => s.edit f
  | .ask q => (s.ask q).2

def after (s : Session) (actions : List Action) : Session :=
  actions.foldl act s

/-- The circuits in which the shape of a connection is asked for, in order. -/
def askings (i : Nat) (s : Session) : List Action → List Circuit
  | [] => []
  | .edit f :: rest => (s.edit f).askings i rest
  | .ask q :: rest =>
    (if i ∈ q.visits s.circuit s.connections then [s.circuit] else []) ++ (s.ask q).2.askings i rest

end Session

namespace Connection

/-- The first shape that is found in some circuits. -/
def firstShape (c : Connection) (circuits : List Circuit) : Option Shape :=
  circuits.findSome? fun g => (c.shapeIn g).toOption

/-- The shape of a connection that was asked for in some circuits before: the first that was found,
or else what it is in the present one. -/
def shapeAfter (c : Connection) (before : List Circuit) (present : Circuit) : Except Fault Shape :=
  match c.firstShape before with
  | some s => .ok s
  | none => c.shapeIn present

theorem firstShape_eq_none_iff {c : Connection} {circuits : List Circuit} :
    c.firstShape circuits = none ↔ ∀ g ∈ circuits, ∀ x, c.shapeIn g ≠ .ok x := by
  rw [firstShape, List.findSome?_eq_none_iff]
  refine forall₂_congr fun g _ => ?_
  cases c.shapeIn g <;> simp [Except.toOption]

theorem firstShape_eq_some_iff {c : Connection} {circuits : List Circuit} {x : Shape} :
    c.firstShape circuits = some x ↔ ∃ (j : Nat) (h : Circuit), circuits[j]? = some h ∧
      c.shapeIn h = .ok x ∧ ∀ i < j, ∀ g, circuits[i]? = some g → ∀ y, c.shapeIn g ≠ .ok y := by
  have hok : ∀ g x, (c.shapeIn g).toOption = some x ↔ c.shapeIn g = .ok x := by
    intro g x
    cases c.shapeIn g <;> simp [Except.toOption]
  have hnone : ∀ g, (c.shapeIn g).toOption = none ↔ ∀ y, c.shapeIn g ≠ .ok y := by
    intro g
    cases c.shapeIn g <;> simp [Except.toOption]
  simp only [firstShape, findSome?_eq_some_iff_first, hok, hnone]

/-- The present circuit comes last. -/
theorem shapeAfter_eq (c : Connection) (before : List Circuit) (present : Circuit) :
    c.shapeAfter before present =
      match c.firstShape (before ++ [present]) with
      | some s => .ok s
      | none => c.shapeIn present := by
  rw [shapeAfter, firstShape, firstShape, List.findSome?_append, List.findSome?_singleton]
  cases before.findSome? fun g => (c.shapeIn g).toOption with
  | some s => rfl
  | none => cases c.shapeIn present <;> simp [Except.toOption]

/-- What becomes known in one circuit and then in others. -/
theorem learn_remember (c : Connection) (g : Circuit) (rest : List Circuit) :
    { c.remember g with known := (c.remember g).known.or ((c.remember g).firstShape rest) } =
      { c with known := c.known.or (c.firstShape ([g] ++ rest)) } := by
  have hfirst : c.firstShape ([g] ++ rest) = (c.shapeIn g).toOption.or (c.firstShape rest) := by
    rw [firstShape, List.findSome?_append, List.findSome?_singleton]
    rfl
  rw [hfirst, ← Option.or_assoc, remember_eq]
  rfl

/-- A connection that was asked for in some circuits knows the first shape that was found. -/
theorem shape_eq_shapeAfter (c : Connection) (before : List Circuit) (present : Circuit) :
    { c with known := c.firstShape before }.shape present = c.shapeAfter before present := by
  rw [shapeAfter]
  cases hfirst : c.firstShape before with
  | some x => exact shape_of_known rfl present
  | none => exact shape_of_unknown rfl present

end Connection

/-- Asking for shapes changes neither names nor ports. -/
theorem Connections.Indexed.remember {cs : Connections} (hcs : cs.Indexed) (circuit : Circuit)
    (asked : List Nat) : (cs.remember circuit asked).Indexed := by
  have hkept : ∀ (i : Nat) k, (cs.remember circuit asked).list[i]? = some k ↔
      ∃ d, cs.list[i]? = some d ∧ (if i ∈ asked then d.remember circuit else d) = k := by
    intro i k
    rw [getElem?_remember, Option.map_eq_some_iff]
  have hfields : ∀ (i : Nat) (d : Connection),
      (if i ∈ asked then d.remember circuit else d).forget = d.forget := by
    intro i d
    split
    · exact d.forget_remember circuit
    · rfl
  constructor
  case ids =>
    intro i k hk
    obtain ⟨d, hd, rfl⟩ := (hkept i k).mp hk
    exact (congrArg (·.id) (hfields i d)).trans (hcs.ids i d hd)
  case names =>
    intro name i
    refine (hcs.names name i).trans ?_
    constructor
    · rintro ⟨d, hd, rfl⟩
      exact ⟨_, (hkept i _).mpr ⟨d, hd, rfl⟩, congrArg (·.name) (hfields i d)⟩
    · rintro ⟨k, hk, rfl⟩
      obtain ⟨d, hd, rfl⟩ := (hkept i k).mp hk
      exact ⟨d, hd, (congrArg (·.name) (hfields i d)).symm⟩
  case ports =>
    intro r i
    refine (hcs.ports r i).trans ?_
    constructor
    · rintro ⟨d, hd, hr⟩
      refine ⟨_, (hkept i _).mpr ⟨d, hd, rfl⟩, ?_⟩
      exact (congrArg (·.members) (hfields i d)) ▸ hr
    · rintro ⟨k, hk, hr⟩
      obtain ⟨d, hd, rfl⟩ := (hkept i k).mp hk
      exact ⟨d, hd, (congrArg (·.members) (hfields i d)) ▸ hr⟩

namespace Session

/-- The shapes that are given after some actions. -/
def shapesAfter (s : Session) (actions : List Action) (i : Nat) : Except Fault Shape := do
  (← s.connections.get i).shapeAfter (s.askings i actions) (s.after actions).circuit

/-- What a session knows after some actions: of each connection the first shape that was found in
the circuits in which it was asked for. -/
theorem connections_after {s : Session} (hs : s.connections.Indexed) (actions : List Action) :
    (s.after actions).connections = {
      s.connections with
      list := s.connections.list.mapIdx fun i c =>
        { c with known := c.known.or (c.firstShape (s.askings i actions)) } } := by
  induction actions generalizing s with
  | nil =>
    refine Connections.ext_list (fun i => ?_) rfl rfl
    simp [after, askings, Connection.firstShape]
  | cons action rest ih =>
    cases action with
    | edit f => exact ih (s := s.edit f) hs
    | ask q =>
      obtain ⟨-, -, hconnections⟩ := s.ask_spec q
      rw [Query.asked_inquiry hs] at hconnections
      have hrest := ih (s := (s.ask q).2) (hconnections ▸ hs.remember _ _)
      refine hrest.trans ?_
      refine Connections.ext_list (fun i => ?_) (congrArg (·.byName) hconnections)
        (congrArg (·.byPort) hconnections)
      dsimp only
      rw [hconnections, List.getElem?_mapIdx, List.getElem?_mapIdx, Connections.getElem?_remember,
        Option.map_map]
      refine congrArg (fun f => Option.map f s.connections.list[i]?) (funext fun c => ?_)
      rw [Function.comp_apply, askings]
      split
      · exact c.learn_remember s.circuit _
      · rfl

section

variable {s : Session} (hs : Connections.ofCircuit s.circuit = .ok s.connections)

include hs

private theorem indexed_of_ofCircuit : s.connections.Indexed := by
  obtain ⟨hshared, hconnections⟩ := Connections.ofCircuit_eq_ok_iff.mp hs
  rw [hconnections]
  exact Connections.indexed_connections hshared

private theorem getElem?_after (actions : List Action) (i : Nat) :
    (s.after actions).connections.list[i]? = (s.connections.list[i]?).map fun c =>
      { c with known := c.firstShape (s.askings i actions) } := by
  obtain ⟨hshared, hconnections⟩ := Connections.ofCircuit_eq_ok_iff.mp hs
  rw [connections_after (indexed_of_ofCircuit hs), List.getElem?_mapIdx]
  cases hc : s.connections.list[i]? with
  | none => rfl
  | some c =>
    rw [hconnections] at hc
    rw [Option.map_some, Option.map_some, (Connections.getElem?_connections_eq_some hc).2]
    rfl

private theorem forget_after (actions : List Action) :
    (s.after actions).connections.forget = s.connections.forget := by
  have hafter := connections_after (indexed_of_ofCircuit hs) actions
  refine Connections.ext_list (fun i => ?_) (congrArg (·.byName) hafter)
    (congrArg (·.byPort) hafter)
  rw [Connections.forget, Connections.forget, List.getElem?_map, List.getElem?_map,
    getElem?_after hs, Option.map_map]
  rfl

/-- What is answered after some actions. -/
theorem ask_after (actions : List Action) (q : Query) :
    ((s.after actions).ask q).1 =
      q.answer (s.after actions).circuit s.connections (s.shapesAfter actions) := by
  have hshapes : (s.after actions).connections.answers (s.after actions).circuit =
      s.shapesAfter actions := by
    funext i
    rw [Connections.answers, shapesAfter, Connections.get, Connections.get, getElem?_after hs]
    cases s.connections.list[i]? with
    | none => rfl
    | some c => exact c.shape_eq_shapeAfter _ _
  rw [((s.after actions).ask_spec q).1, hshapes, Query.answer, Query.answer,
    ← Query.inquiry_forget, forget_after hs, Query.inquiry_forget]

end

/-- The answers for one connection, with the circuit changed before each query. -/
def shapesAlong (name : String) (s : Session) :
    List Circuit → List (Except Fault (Option Shape))
  | [] => []
  | g :: rest =>
    let answered := (s.edit fun _ => g).shapeOf? name
    answered.1 :: answered.2.shapesAlong name rest

private theorem shapeOf?_eq {s : Session} (hs : s.connections.Indexed) {i : Nat} {c : Connection}
    (hc : s.connections.list[i]? = some c) :
    s.shapeOf? c.name = ((c.shape s.circuit).map some,
      { s with connections := s.connections.remember s.circuit [i] }) := by
  have hfound : s.connections.find? c.name = .ok (some (c, i)) :=
    hs.find?_eq_some_iff.mpr ⟨hc, rfl⟩
  have hlookup : s.connections.byName.lookup c.name = some i := (hs.names _ _).mpr ⟨c, hc, rfl⟩
  rw [shapeOf?, inquire, Inquiry.run_eq, Connections.asked_about hs _ Inquiry.asked_shape, hlookup,
    Connections.about, Inquiry.result_bind, Inquiry.result_lift, hfound, ok_bind]
  dsimp only
  rw [Inquiry.result_bind, Inquiry.result_shape, Connections.answers_of_getElem? hc]
  cases c.shape s.circuit <;> rfl

private theorem getElem?_shapesAlong {s : Session} (hs : s.connections.Indexed) {i : Nat}
    {c : Connection} (hc : s.connections.list[i]? = some c) {circuits : List Circuit} {k : Nat}
    {g : Circuit}
    (hg : circuits[k]? = some g) :
    (s.shapesAlong c.name circuits)[k]? =
      some (({ c with
        known := c.known.or (c.firstShape (circuits.take k)) }.shape g).map some) := by
  induction circuits generalizing s c k with
  | nil => simp at hg
  | cons h rest ih =>
    have hstep := shapeOf?_eq (s := s.edit fun _ => h) hs hc
    rw [shapesAlong, hstep]
    cases k with
    | zero =>
      cases hg
      simp [Connection.firstShape, edit]
    | succ k =>
      have hkept : (s.connections.remember h [i]).list[i]? = some (c.remember h) := by
        rw [Connections.getElem?_remember, hc, Option.map_some, if_pos (List.mem_singleton_self i)]
      have hname : (c.remember h).name = c.name := congrArg (·.name) (c.forget_remember h)
      have hrest := ih (s := { s.edit fun _ => h with
        connections := s.connections.remember h [i] }) (hs.remember h [i]) hkept hg
      rw [c.learn_remember, hname] at hrest
      exact hrest

/-- The first circuit in which a shape is found gives the answer from then on, and before that each
answer is the fault in its own circuit. -/
theorem shapesAlong_first {s : Session} (hs : s.connections.Indexed) {c : Connection}
    (hc : c ∈ s.connections.list) (hunknown : c.known = none) {circuits : List Circuit} {k : Nat}
    {g : Circuit} (hg : circuits[k]? = some g) :
    (∀ j ≤ k, ∀ h x, circuits[j]? = some h → c.shapeIn h = .ok x →
      (∀ i < j, ∀ h, circuits[i]? = some h → ∀ y, c.shapeIn h ≠ .ok y) →
      (s.shapesAlong c.name circuits)[k]? = some (.ok (some x))) ∧
    ((∀ j ≤ k, ∀ h, circuits[j]? = some h → ∀ y, c.shapeIn h ≠ .ok y) →
      ∃ f, c.shapeIn g = .error f ∧ (s.shapesAlong c.name circuits)[k]? = some (.error f)) := by
  obtain ⟨i, hi⟩ := List.getElem?_of_mem hc
  have htake : circuits.take (k + 1) = circuits.take k ++ [g] := by
    rw [List.take_add_one, hg]
    rfl
  rw [getElem?_shapesAlong hs hi hg, hunknown, Option.none_or, Connection.shape_eq_shapeAfter,
    Connection.shapeAfter_eq, ← htake]
  constructor
  · intro j hj h x hh hx hbefore
    have hfirst : c.firstShape (circuits.take (k + 1)) = some x := by
      refine Connection.firstShape_eq_some_iff.mpr ⟨j, h, ?_, hx, fun i hi g hg => ?_⟩
      · rw [List.getElem?_take_of_lt (by omega), hh]
      · rw [List.getElem?_take_of_lt (by omega)] at hg
        exact hbefore i hi g hg
    rw [hfirst]
    rfl
  · intro hnone
    have hfirst : c.firstShape (circuits.take (k + 1)) = none := by
      refine Connection.firstShape_eq_none_iff.mpr fun h hh => ?_
      obtain ⟨j, hj⟩ := List.getElem?_of_mem hh
      rw [List.getElem?_take, Option.ite_none_right_eq_some] at hj
      exact hnone j (by omega) h hj.2
    rw [hfirst]
    cases hshape : c.shapeIn g with
    | ok y => exact absurd hshape (hnone k (Nat.le_refl k) g hg y)
    | error f => exact ⟨f, rfl, rfl⟩

end Session

/-- Shapes are remembered unseen: on a circuit and the connections made from it, all queries in any
order are answered as if every shape were found anew. If the circuit is changed between queries,
each connection keeps the first shape that was found of those that some query came to, and every
query is answered with these shapes, and with those of the present circuit where there is none. So
one connection that is asked for in one circuit after the other has the shape of the first in which
it has one, and before that each query reports what is wrong in its own circuit. -/
theorem Session.answers_forget_and_first_shape {s : Session}
    (hs : Connections.ofCircuit s.circuit = .ok s.connections) :
    (∀ queries : List Query, s.answers queries =
      queries.map (Query.answer s.circuit s.connections (s.connections.shapesIn s.circuit))) ∧
    (∀ actions : List Action,
      (∀ i : Nat, (s.after actions).connections.list[i]? = (s.connections.list[i]?).map fun c =>
        { c with known := c.firstShape (s.askings i actions) }) ∧
      ∀ q, ((s.after actions).ask q).1 =
        q.answer (s.after actions).circuit s.connections (s.shapesAfter actions)) ∧
    ∀ c ∈ s.connections.list, ∀ (circuits : List Circuit) (k : Nat) (g : Circuit),
      circuits[k]? = some g →
        (∀ j ≤ k, ∀ h x, circuits[j]? = some h → c.shapeIn h = .ok x →
          (∀ i < j, ∀ h, circuits[i]? = some h → ∀ y, c.shapeIn h ≠ .ok y) →
          (s.shapesAlong c.name circuits)[k]? = some (.ok (some x))) ∧
        ((∀ j ≤ k, ∀ h, circuits[j]? = some h → ∀ y, c.shapeIn h ≠ .ok y) →
          ∃ f, c.shapeIn g = .error f ∧ (s.shapesAlong c.name circuits)[k]? = some (.error f)) := by
  obtain ⟨-, hconnections⟩ := Connections.ofCircuit_eq_ok_iff.mp hs
  refine ⟨fun queries => ?_, fun actions => ?_, fun c hc circuits k g hg => ?_⟩
  · apply answers_of_faithful
    rw [hconnections]
    exact Connections.faithful_connections s.circuit
  · exact ⟨getElem?_after hs actions, ask_after hs actions⟩
  · have hunknown : c.known = none := by
      rw [hconnections] at hc
      obtain ⟨net, -, rfl⟩ := List.mem_map.mp hc
      rfl
    exact shapesAlong_first (indexed_of_ofCircuit hs) hc hunknown hg

/-- The port becomes an array or a single signal. -/
def Circuit.setArray (r : PortRef) (isArray : Bool) (c : Circuit) : Circuit :=
  c.modifyPort r fun p => { p with isArray }

/-- One end of a net becomes an array and then the other, and both go back. The first query fails
at the net before it comes to the next one, the second comes to both. -/
def Session.switching : List Session.Action :=
  [.edit (Circuit.setArray ⟨1, 0⟩ true), .ask .checkShapes, .edit (Circuit.setArray ⟨0, 0⟩ true),
    .ask .listing, .edit (Circuit.setArray ⟨0, 0⟩ false), .edit (Circuit.setArray ⟨1, 0⟩ false)]

theorem Session.answers_forget_and_first_shape_switchBoard :
    ∃ s, Session.start .builtin {} (Connections.switchBoard Connections.alternating) = .ok s ∧
      s.answers [.checkShapes, .shape "on", .isArray "gnd"] =
        [.ok .checkShapes, .ok (.shape (some .scalar)), .ok (.isArray (some false))] ∧
      (s.after switching).circuit = s.circuit ∧
      (s.after switching).connections.list[0]? =
        some ⟨0, "on", [⟨1, 0⟩, ⟨0, 0⟩], some .array⟩ ∧
      (s.after switching).connections.list[1]? =
        some ⟨1, "gnd", [⟨0, 1⟩, ⟨1, 1⟩], some .scalar⟩ ∧
      ((s.after switching).ask (.shape "on")).1 = .ok (.shape (some .array)) ∧
      (s.shapesAlong "on" [s.circuit.setArray ⟨1, 0⟩ true,
        (s.circuit.moveLabel 0 ⟨1, 1⟩).renameLabel 2 "off",
        ((s.circuit.removeLabel 0).setArray ⟨1, 0⟩ true).setArray ⟨0, 0⟩ true])[2]? =
          some (.ok (some .scalar)) := by
  let c := (Connections.switchBoard Connections.alternating).circuit .builtin
  let s : Session := ⟨.builtin, {}, c, c.connections, [], .empty⟩
  have hs : Connections.ofCircuit s.circuit = .ok s.connections :=
    Connections.ofCircuit_eq_ok_iff.mpr
      ⟨show (s.circuit.labels.map (·.target)).Nodup by decide, rfl⟩
  have hstart :
      Session.start .builtin {} (Connections.switchBoard Connections.alternating) = .ok s := by
    rw [Session.start, show Circuit.ofNetlist .builtin _ = .ok c from rfl, ok_bind, hs]
    rfl
  obtain ⟨hanswers, hafter, hfirst⟩ := answers_forget_and_first_shape hs
  obtain ⟨hknown, hask⟩ := hafter switching
  refine ⟨s, hstart, (hanswers _).trans rfl, rfl, (hknown 0).trans (by decide +kernel),
    (hknown 1).trans (by decide +kernel),
    (hask (.shape "on")).trans (eq_ok_of_toOption_eq_some (by decide +kernel)), ?_⟩
  refine (hfirst ⟨0, "on", [⟨1, 0⟩, ⟨0, 0⟩], none⟩ List.mem_cons_self _ 2 _ rfl).1 1 (by decide) _
    .scalar rfl rfl fun i hi h hh => ?_
  obtain rfl : i = 0 := by omega
  cases hh
  rintro y ⟨⟩

end Schematic
