import Schematic.Connection.Shape
import Schematic.Proofs.Sequence

namespace Schematic

namespace Connection

/-- The connection as if its shape had never been asked for. -/
def forget (c : Connection) : Connection :=
  { c with known := none }

/-- The connection after its shape was asked for. -/
def remember (circuit : Circuit) (c : Connection) : Connection :=
  (c.query circuit).2

/-- What is known of a connection is its shape in the circuit. -/
def Faithful (circuit : Circuit) (c : Connection) : Prop :=
  ∀ s, c.known = some s → c.shapeIn circuit = .ok s

theorem shape_of_known {c : Connection} {s : Shape} (hc : c.known = some s) (circuit : Circuit) :
    c.shape circuit = .ok s := by
  rw [shape, query, hc]

theorem shape_of_unknown {c : Connection} (hc : c.known = none) (circuit : Circuit) :
    c.shape circuit = c.shapeIn circuit := by
  rw [shape, query, hc]
  cases hshape : c.shapeIn circuit <;> rfl

/-- The known shape stays; otherwise the one in the circuit becomes known, if there is one. -/
theorem remember_eq (circuit : Circuit) (c : Connection) :
    c.remember circuit = { c with known := c.known.or (c.shapeIn circuit).toOption } := by
  obtain ⟨id, name, members, known⟩ := c
  cases known with
  | some s => rfl
  | none =>
    cases hshape : shapeIn circuit ⟨id, name, members, none⟩ with
    | ok s => simp [remember, query, hshape, Except.toOption]
    | error f => simp [remember, query, hshape, Except.toOption]

private theorem known_remember (circuit : Circuit) (c : Connection) :
    (c.remember circuit).known = c.known.or (c.shapeIn circuit).toOption := by
  rw [remember_eq]

theorem forget_remember (circuit : Circuit) (c : Connection) :
    (c.remember circuit).forget = c.forget := by
  rw [remember_eq]
  rfl

private theorem shapeIn_remember (circuit g : Circuit) (c : Connection) :
    (c.remember circuit).shapeIn g = c.shapeIn g := by
  rw [remember_eq]
  rfl

private theorem shape_remember (circuit : Circuit) (c : Connection) :
    (c.remember circuit).shape circuit = c.shape circuit := by
  cases hknown : c.known with
  | some s =>
    have hafter : (c.remember circuit).known = some s := by
      rw [known_remember, hknown, Option.some_or]
    rw [shape_of_known hknown, shape_of_known hafter]
  | none =>
    rw [shape_of_unknown hknown]
    cases hshape : c.shapeIn circuit with
    | ok s =>
      have hafter : (c.remember circuit).known = some s := by
        rw [known_remember, hknown, hshape]
        rfl
      rw [shape_of_known hafter]
    | error f =>
      have hafter : (c.remember circuit).known = none := by
        rw [known_remember, hknown, hshape]
        rfl
      rw [shape_of_unknown hafter, shapeIn_remember, hshape]

theorem remember_remember (circuit : Circuit) (c : Connection) :
    (c.remember circuit).remember circuit = c.remember circuit := by
  rw [remember_eq circuit (c.remember circuit), shapeIn_remember, known_remember, remember_eq]
  cases c.known <;> cases (c.shapeIn circuit).toOption <;> rfl

theorem Faithful.shape_eq {circuit : Circuit} {c : Connection} (hc : c.Faithful circuit) :
    c.shape circuit = c.shapeIn circuit := by
  cases hknown : c.known with
  | none => exact shape_of_unknown hknown circuit
  | some s => rw [shape_of_known hknown, hc s hknown]

theorem Faithful.remember {circuit : Circuit} {c : Connection} (hc : c.Faithful circuit) :
    (c.remember circuit).Faithful circuit := by
  intro s hs
  rw [shapeIn_remember]
  rw [known_remember] at hs
  cases hknown : c.known with
  | some t =>
    rw [hknown, Option.some_or, Option.some.injEq] at hs
    rw [← hs, hc t hknown]
  | none =>
    rw [hknown, Option.none_or] at hs
    exact eq_ok_of_toOption_eq_some hs

end Connection

namespace Connections

/-- The connections as if no shape had ever been asked for. -/
def forget (cs : Connections) : Connections :=
  { cs with list := cs.list.map Connection.forget }

/-- The connections after the shapes at some positions were asked for. -/
def remember (circuit : Circuit) (cs : Connections) (asked : List Nat) : Connections :=
  { cs with list := cs.list.mapIdx fun i c => if i ∈ asked then c.remember circuit else c }

/-- The answers to questions for shapes. -/
def answers (circuit : Circuit) (cs : Connections) (i : Nat) : Except Fault Shape := do
  (← cs.get i).shape circuit

/-- The shapes in a circuit, whatever is known. -/
def shapesIn (circuit : Circuit) (cs : Connections) (i : Nat) : Except Fault Shape := do
  (← cs.get i).shapeIn circuit

def Faithful (circuit : Circuit) (cs : Connections) : Prop :=
  ∀ c ∈ cs.list, c.Faithful circuit

theorem get_eq_ok_iff {cs : Connections} {i : Nat} {c : Connection} :
    cs.get i = .ok c ↔ cs.list[i]? = some c := by
  unfold get
  cases cs.list[i]? <;> simp

theorem get_of_getElem? {cs : Connections} {i : Nat} {c : Connection}
    (hc : cs.list[i]? = some c) : cs.get i = .ok c :=
  get_eq_ok_iff.mpr hc

theorem answers_of_getElem? {cs : Connections} {i : Nat} {c : Connection}
    (hc : cs.list[i]? = some c) (circuit : Circuit) :
    cs.answers circuit i = c.shape circuit := by
  rw [answers, get_of_getElem? hc, ok_bind]

private theorem shapesIn_of_getElem? {cs : Connections} {i : Nat} {c : Connection}
    (hc : cs.list[i]? = some c) (circuit : Circuit) :
    cs.shapesIn circuit i = c.shapeIn circuit := by
  rw [shapesIn, get_of_getElem? hc, ok_bind]

theorem getElem?_remember (circuit : Circuit) (cs : Connections) (asked : List Nat) (i : Nat) :
    (cs.remember circuit asked).list[i]? =
      (cs.list[i]?).map fun c => if i ∈ asked then c.remember circuit else c :=
  List.getElem?_mapIdx

theorem ext_list {cs ds : Connections} (hlist : ∀ i : Nat, cs.list[i]? = ds.list[i]?)
    (hname : cs.byName = ds.byName) (hport : cs.byPort = ds.byPort) : cs = ds := by
  obtain ⟨list, byName, byPort⟩ := cs
  obtain rfl := List.ext_getElem? hlist
  obtain rfl := hname
  obtain rfl := hport
  rfl

theorem remember_nil (circuit : Circuit) (cs : Connections) : cs.remember circuit [] = cs :=
  ext_list (fun i => by simp [getElem?_remember]) rfl rfl

/-- A question is answered from the connection at the position, which is all that changes. -/
theorem query_eq (circuit : Circuit) (cs : Connections) (i : Nat) :
    cs.query circuit i = (cs.answers circuit i, cs.remember circuit [i]) := by
  have hkept : ∀ j, (cs.remember circuit [i]).list[j]? =
      (cs.list[j]?).map fun c => if j = i then c.remember circuit else c := by
    intro j
    rw [getElem?_remember]
    simp only [List.mem_singleton]
  cases hc : cs.list[i]? with
  | none =>
    have hget : cs.get i = .error (.lostConnection i) := by rw [get, hc]
    rw [query, hc, answers, hget]
    refine Prod.ext rfl (ext_list (fun j => ?_) rfl rfl)
    rw [hkept]
    by_cases hji : j = i
    · rw [hji, hc, Option.map_none]
    · simp [hji]
  | some c =>
    rw [query, hc, answers_of_getElem? hc]
    refine Prod.ext rfl (ext_list (fun j => ?_) rfl rfl)
    rw [hkept]
    by_cases hji : j = i
    · obtain ⟨hi, -⟩ := List.getElem?_eq_some_iff.mp hc
      rw [hji, hc, Option.map_some, if_pos rfl]
      exact List.getElem?_set_self hi
    · simp only [hji, if_false, Option.map_id_fun', id_eq]
      exact List.getElem?_set_ne (Ne.symm hji)

theorem answers_remember (circuit : Circuit) (cs : Connections) (asked : List Nat) :
    (cs.remember circuit asked).answers circuit = cs.answers circuit := by
  funext i
  rw [answers, answers, get, get, getElem?_remember]
  cases cs.list[i]? with
  | none => rfl
  | some c =>
    rw [Option.map_some, ok_bind, ok_bind]
    split
    · exact c.shape_remember circuit
    · rfl

theorem remember_remember (circuit : Circuit) (cs : Connections) (as bs : List Nat) :
    (cs.remember circuit as).remember circuit bs = cs.remember circuit (as ++ bs) := by
  refine ext_list (fun i => ?_) rfl rfl
  simp only [getElem?_remember, Option.map_map, List.mem_append]
  refine congrArg (fun f => Option.map f cs.list[i]?) (funext fun c => ?_)
  by_cases ha : i ∈ as <;> by_cases hb : i ∈ bs <;>
    simp [ha, hb, Connection.remember_remember]

theorem forget_remember (circuit : Circuit) (cs : Connections) (asked : List Nat) :
    (cs.remember circuit asked).forget = cs.forget := by
  refine ext_list (fun i => ?_) rfl rfl
  rw [forget, forget, List.getElem?_map, List.getElem?_map, getElem?_remember, Option.map_map]
  refine congrArg (fun f => Option.map f cs.list[i]?) (funext fun c => ?_)
  rw [Function.comp_apply]
  split
  · exact c.forget_remember circuit
  · rfl

theorem Faithful.remember {circuit : Circuit} {cs : Connections} (hcs : cs.Faithful circuit)
    (asked : List Nat) : (cs.remember circuit asked).Faithful circuit := by
  intro c hc
  obtain ⟨i, hi⟩ := List.getElem?_of_mem hc
  rw [getElem?_remember, Option.map_eq_some_iff] at hi
  obtain ⟨d, hd, rfl⟩ := hi
  have hfaithful := hcs d (List.mem_of_getElem? hd)
  split
  · exact hfaithful.remember
  · exact hfaithful

theorem Faithful.answers_eq {circuit : Circuit} {cs : Connections} (hcs : cs.Faithful circuit) :
    cs.answers circuit = cs.shapesIn circuit := by
  funext i
  cases hc : cs.list[i]? with
  | none => rw [answers, shapesIn, get, hc]; rfl
  | some c =>
    rw [answers_of_getElem? hc, shapesIn_of_getElem? hc]
    exact (hcs c (List.mem_of_getElem? hc)).shape_eq

theorem shapesIn_forget (circuit : Circuit) (cs : Connections) :
    cs.forget.shapesIn circuit = cs.shapesIn circuit := by
  funext i
  rw [shapesIn, shapesIn, get, get, forget, List.getElem?_map]
  cases cs.list[i]? <;> rfl

/-- Connections that know nothing. -/
theorem answers_forget (circuit : Circuit) (cs : Connections) :
    cs.forget.answers circuit = cs.shapesIn circuit := by
  have hfaithful : cs.forget.Faithful circuit := by
    intro c hc s hs
    obtain ⟨d, -, rfl⟩ := List.mem_map.mp hc
    cases hs
  rw [hfaithful.answers_eq, shapesIn_forget]

theorem zipIdx_forget (cs : Connections) :
    cs.forget.list.zipIdx = cs.list.zipIdx.map (Prod.map Connection.forget id) :=
  List.zipIdx_map

end Connections

end Schematic
