import Schematic.Proofs.Circuit.Resolution
import Schematic.Proofs.Connection.Grouping
import Schematic.Proofs.Connection.Inquiry

namespace Schematic

namespace Circuit

/-- What references lead to; those that lead nowhere are left out. -/
def endpoints (c : Circuit) (refs : List PortRef) : List Endpoint :=
  refs.filterMap c.endpoint?

/-- The ports of a net that are no slots. -/
def solid (c : Circuit) (net : String) : List Endpoint :=
  (c.endpoints (c.wired net)).filter fun e => !e.port.isSlot

/-- All ports of a net that are no slots are arrays, or none of them is. -/
def Uniform (c : Circuit) (net : String) : Prop :=
  ∀ e ∈ c.solid net, ∀ f ∈ c.solid net, e.port.isArray = f.port.isArray

/-- Some port of a net that is no slot is an array. -/
def carriesArray (c : Circuit) (net : String) : Bool :=
  (c.solid net).any (·.port.isArray)

/-- The shape that the first port of a net sets. -/
def shapeOf (c : Circuit) (net : String) : Shape :=
  match c.solid net with
  | [] => .slotsOnly
  | e :: _ => if e.port.isArray then .array else .scalar

theorem endpoint_eq_ok_iff {c : Circuit} {r : PortRef} {e : Endpoint} :
    c.endpoint r = .ok e ↔ c.endpoint? r = some e := by
  unfold endpoint
  cases c.endpoint? r <;> simp

theorem mapM_endpoint {c : Circuit} {refs : List PortRef}
    (hrefs : ∀ r ∈ refs, ∃ e, c.endpoint? r = some e) :
    refs.mapM c.endpoint = .ok (c.endpoints refs) := by
  induction refs with
  | nil => rfl
  | cons r refs ih =>
    obtain ⟨e, he⟩ := hrefs r List.mem_cons_self
    have hrest := ih fun s hs => hrefs s (List.mem_cons_of_mem r hs)
    simp only [List.mapM_cons, bind_eq_ok_iff, pure_eq_ok_iff]
    refine ⟨e, endpoint_eq_ok_iff.mpr he, c.endpoints refs, hrest, ?_⟩
    simp [endpoints, he]

theorem mem_endpoints {c : Circuit} {refs : List PortRef} {e : Endpoint} :
    e ∈ c.endpoints refs ↔ ∃ r ∈ refs, c.endpoint? r = some e := by
  simp [endpoints]

/-- Only which ports a net has matters to its shape, not their order. -/
theorem uniform_congr {c d : Circuit} {net : String}
    (hports : ∀ e, e ∈ c.endpoints (c.wired net) ↔ e ∈ d.endpoints (d.wired net)) :
    c.Uniform net ↔ d.Uniform net := by
  simp only [Uniform, solid, List.mem_filter, hports]

theorem carriesArray_congr {c d : Circuit} {net : String}
    (hports : ∀ e, e ∈ c.endpoints (c.wired net) ↔ e ∈ d.endpoints (d.wired net)) :
    c.carriesArray net = d.carriesArray net := by
  rw [Bool.eq_iff_iff]
  simp only [carriesArray, solid, List.any_eq_true, List.mem_filter, hports]

theorem Closed.exists_endpoint {c : Circuit} (hc : c.Closed) {net : String} {r : PortRef}
    (hr : r ∈ c.wired net) : ∃ e, c.endpoint? r = some e := by
  obtain ⟨l, hl, -, rfl⟩ := mem_wired.mp hr
  exact hc.targets l hl

end Circuit

namespace Connection

theorem solid_eq_ok {c : Circuit} {k : Connection}
    (hk : ∀ r ∈ k.members, ∃ e, c.endpoint? r = some e) :
    k.solid c = .ok ((c.endpoints k.members).filter fun e => !e.port.isSlot) := by
  rw [solid, Circuit.mapM_endpoint hk]
  rfl

theorem solid_connection {c : Circuit} (hc : c.Closed) (net : String) :
    (c.connection net).solid c = .ok (c.solid net) :=
  solid_eq_ok fun _ hr => hc.exists_endpoint hr

/-- A disagreement within a list shows against its first element. -/
theorem find?_disagrees_eq_none_iff {e : Endpoint} {rest : List Endpoint} :
    rest.find? (fun f => f.port.isArray != e.port.isArray) = none ↔
      ∀ f ∈ e :: rest, ∀ g ∈ e :: rest, f.port.isArray = g.port.isArray := by
  simp only [List.find?_eq_none, bne_iff_ne, ne_eq, not_not]
  constructor
  · intro hagree
    have hfirst : ∀ f ∈ e :: rest, f.port.isArray = e.port.isArray := by
      simpa using hagree
    intro f hf g hg
    rw [hfirst f hf, hfirst g hg]
  · intro hall f hf
    exact hall f (List.mem_cons_of_mem e hf) e List.mem_cons_self

/-- Members that lead somewhere can only disagree. -/
theorem isLost_of_shapeIn_eq_error {c : Circuit} {k : Connection}
    (hk : ∀ r ∈ k.members, ∃ e, c.endpoint? r = some e) {f : Fault}
    (hf : k.shapeIn c = .error f) : f.isLost = false := by
  rw [shapeIn, solid_eq_ok hk, ok_bind] at hf
  split at hf
  · cases hf
  · split at hf
    · cases hf
    · split at hf
      · cases hf
        rfl
      · cases hf
        rfl

theorem shape_connection_eq_ok_iff {c : Circuit} (hc : c.Closed) {net : String} {s : Shape} :
    (c.connection net).shape c = .ok s ↔ c.Uniform net ∧ s = c.shapeOf net := by
  rw [shape_of_unknown rfl]
  simp only [shapeIn, solid_connection hc, bind_eq_ok_iff, Except.ok.injEq, exists_eq_left',
    Circuit.Uniform, Circuit.shapeOf]
  cases c.solid net with
  | nil => simp
  | cons e rest =>
    simp only [← find?_disagrees_eq_none_iff]
    cases rest.find? fun f => f.port.isArray != e.port.isArray with
    | none => simp
    | some f => cases e.port.isArray <;> simp

end Connection

namespace Circuit

theorem Uniform.shapeOf_eq_array_iff {c : Circuit} {net : String} (hnet : c.Uniform net) :
    c.shapeOf net = .array ↔ c.carriesArray net = true := by
  unfold Uniform at hnet
  unfold shapeOf carriesArray
  cases hsolid : c.solid net with
  | nil => simp
  | cons e rest =>
    have hrest : ∀ f ∈ rest, f.port.isArray = e.port.isArray := by
      intro f hf
      rw [hsolid] at hnet
      exact hnet f (List.mem_cons_of_mem e hf) e List.mem_cons_self
    cases harray : e.port.isArray <;> simp_all

end Circuit

theorem Connection.isArray_connection_eq_ok_iff {c : Circuit} (hc : c.Closed) {net : String}
    {b : Bool} :
    (c.connection net).isArray c = .ok b ↔ c.Uniform net ∧ b = c.carriesArray net := by
  simp only [isArray, bind_eq_ok_iff, shape_connection_eq_ok_iff hc, pure_eq_ok_iff]
  constructor
  · rintro ⟨_, ⟨hnet, rfl⟩, rfl⟩
    refine ⟨hnet, ?_⟩
    rw [Bool.eq_iff_iff, ← hnet.shapeOf_eq_array_iff, beq_iff_eq]
  · rintro ⟨hnet, rfl⟩
    refine ⟨_, ⟨hnet, rfl⟩, ?_⟩
    rw [Bool.eq_iff_iff, ← hnet.shapeOf_eq_array_iff, beq_iff_eq]

theorem Connections.result_isArray_connections {c : Circuit} (hclosed : c.Closed) {net : String}
    (hmem : net ∈ c.nets) (hnet : c.Uniform net) :
    (Inquiry.isArray (c.nets.idxOf net)).result (c.connections.answers c) =
      .ok (c.carriesArray net) := by
  rw [result_isArray (getElem?_connections hmem)]
  exact (Connection.isArray_connection_eq_ok_iff hclosed).mpr ⟨hnet, rfl⟩

theorem Connections.checkShapes_connections_eq_ok_iff {c : Circuit} (hc : c.Closed) :
    c.connections.checkShapes c = .ok () ↔ ∀ net ∈ c.nets, c.Uniform net := by
  simp only [checkShapes_eq, forM_eq_ok_iff, Circuit.connections, List.forall_mem_map]
  refine forall₂_congr fun net _ => ?_
  simp only [bind_eq_ok_iff, Connection.shape_connection_eq_ok_iff hc, pure_eq_ok_iff]
  simp

end Schematic
