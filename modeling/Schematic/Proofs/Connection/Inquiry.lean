import Schematic.Connection.Inquiry
import Schematic.Proofs.Connection.Known

namespace Schematic

namespace Inquiry

variable {α β : Type}

/-- What an inquiry comes to, given the answers to its questions. -/
def result (answer : Nat → Except Fault Shape) : Inquiry α → Except Fault α
  | done r => r
  | tell _ next => next.result answer
  | ask i next => (next (answer i)).result answer

/-- The positions that are asked for, in order. -/
def asked (answer : Nat → Except Fault Shape) : Inquiry α → List Nat
  | done _ => []
  | tell _ next => next.asked answer
  | ask i next => i :: (next (answer i)).asked answer

/-- The events that are told, in order. -/
def events (answer : Nat → Except Fault Shape) : Inquiry α → List Event
  | done _ => []
  | tell event next => event :: next.events answer
  | ask i next => (next (answer i)).events answer

/-- Shapes that are kept on the way change no later answer, so that an inquiry can be read against
the answers of its start. -/
theorem run_eq (circuit : Circuit) (p : Inquiry α) (cs : Connections) :
    p.run circuit cs = {
      result := p.result (cs.answers circuit)
      connections := cs.remember circuit (p.asked (cs.answers circuit))
      events := p.events (cs.answers circuit) } := by
  induction p generalizing cs with
  | done r => rw [run, result, asked, events, Connections.remember_nil]
  | tell event next ih => rw [run, ih, result, asked, events]
  | ask i next ih =>
    rw [run, Connections.query_eq]
    dsimp only
    rw [ih, Connections.answers_remember, Connections.remember_remember, result, asked, events]
    rfl

instance : LawfulMonad Inquiry := by
  refine LawfulMonad.mk' Inquiry ?_ ?_ ?_
  · intro α p
    change p.bind (fun a => done (.ok a)) = p
    induction p with
    | done r => cases r <;> rfl
    | tell event next ih => exact congrArg (tell event) ih
    | ask i next ih => exact congrArg (ask i) (funext ih)
  · intro α β a f
    rfl
  · intro α β γ p f g
    change (p.bind f).bind g = p.bind fun a => (f a).bind g
    induction p with
    | done r => cases r <;> rfl
    | tell event next ih => exact congrArg (tell event) ih
    | ask i next ih => exact congrArg (ask i) (funext ih)

section

variable {answer : Nat → Except Fault Shape}

@[simp] theorem result_pure (a : α) : (pure a : Inquiry α).result answer = .ok a :=
  rfl

@[simp] theorem result_lift (x : Except Fault α) : (liftM x : Inquiry α).result answer = x :=
  rfl

@[simp] theorem result_bind (p : Inquiry α) (f : α → Inquiry β) :
    (p >>= f).result answer = p.result answer >>= fun a => (f a).result answer := by
  change (p.bind f).result answer = _
  induction p with
  | done r => cases r <;> rfl
  | tell event next ih => exact ih
  | ask i next ih => exact ih (answer i)

@[simp] theorem result_shape (i : Nat) : (shape i).result answer = answer i :=
  rfl

@[simp] theorem result_isArray (i : Nat) :
    (isArray i).result answer = answer i >>= fun s => .ok (s == .array) := by
  rw [isArray, result_bind]
  rfl

theorem result_shape? (i : Nat) :
    (shape? i).result answer =
      match answer i with
      | .ok s => .ok (some s)
      | .error fault => if fault.isLost then .error fault else .ok none := by
  rw [shape?, result]
  cases answer i with
  | ok s => rfl
  | error fault => dsimp only; split <;> rfl

theorem result_mapM (f : α → Inquiry β) (as : List α) :
    (as.mapM f).result answer = as.mapM fun a => (f a).result answer := by
  induction as with
  | nil => rfl
  | cons a as ih => simp only [List.mapM_cons, result_bind, ih]; rfl

private theorem result_forM (f : α → Inquiry PUnit) (as : List α) :
    (as.forM f).result answer = as.forM fun a => (f a).result answer := by
  induction as with
  | nil => rfl
  | cons a as ih =>
    change (f a >>= fun _ => as.forM f).result answer = _
    rw [result_bind]
    exact congrArg ((f a).result answer >>= ·) (funext fun _ => ih)

theorem result_foldlM (f : β → α → Inquiry β) (as : List α) (b : β) :
    (as.foldlM f b).result answer = as.foldlM (fun b a => (f b a).result answer) b := by
  induction as generalizing b with
  | nil => rfl
  | cons a as ih => simp only [List.foldlM_cons, result_bind, ih]

@[simp] theorem asked_lift (x : Except Fault α) : (liftM x : Inquiry α).asked answer = [] :=
  rfl

@[simp] theorem asked_shape (i : Nat) : (shape i).asked answer = [i] :=
  rfl

/-- What comes after is asked only if there is a result to go on with. -/
theorem asked_bind (p : Inquiry α) (f : α → Inquiry β) :
    (p >>= f).asked answer =
      p.asked answer ++ match p.result answer with
        | .ok a => (f a).asked answer
        | .error _ => [] := by
  change (p.bind f).asked answer = _
  induction p with
  | done r => cases r <;> rfl
  | tell event next ih => exact ih
  | ask i next ih => exact congrArg (i :: ·) (ih (answer i))

@[simp] theorem asked_isArray (i : Nat) : (isArray i).asked answer = [i] := by
  rw [isArray, asked_bind, result_shape]
  cases answer i <;> rfl

@[simp] theorem asked_shape? (i : Nat) : (shape? i).asked answer = [i] := by
  rw [shape?, asked]
  cases answer i with
  | ok s => rfl
  | error fault => dsimp only; split <;> rfl

end

/-- The result of a run is read against the answers of its start. -/
theorem result_run (circuit : Circuit) (p : Inquiry α) (cs : Connections) :
    (p.run circuit cs).result = p.result (cs.answers circuit) := by
  rw [run_eq]

end Inquiry

/-- A connection of slots only counts as scalar. -/
def Connection.isArray (circuit : Circuit) (c : Connection) : Except Fault Bool := do
  return (← c.shape circuit) == .array

namespace Connections

theorem result_isArray {cs : Connections} {i : Nat} {c : Connection} (hc : cs.list[i]? = some c)
    (circuit : Circuit) :
    (Inquiry.isArray i).result (cs.answers circuit) = c.isArray circuit := by
  rw [Inquiry.result_isArray, answers_of_getElem? hc]
  rfl

theorem checkShapes_eq (circuit : Circuit) (cs : Connections) :
    cs.checkShapes circuit = cs.list.forM fun c => c.shape circuit >>= fun _ => pure () := by
  rw [checkShapes, Inquiry.result_run, checking, Inquiry.result_forM]
  conv_rhs => rw [← List.zipIdx_map_fst 0 cs.list]
  refine (forM_map_congr fun e he => ?_).symm
  rw [Inquiry.result_bind, Inquiry.result_shape,
    answers_of_getElem? (List.mem_zipIdx_iff_getElem?.mp he)]
  rfl

end Connections

end Schematic
