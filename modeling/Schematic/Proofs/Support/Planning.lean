import Schematic.Proofs.Connection.Inquiry
import Schematic.Support

namespace Schematic.Support

/-- The ports of some that are addressed to a connection, in order. -/
def addressed (entries : List (Nat × Member)) (i : Nat) : List Member :=
  (entries.filter (·.1 == i)).map (·.2)

theorem addressed_append (xs ys : List (Nat × Member)) (i : Nat) :
    addressed (xs ++ ys) i = addressed xs i ++ addressed ys i := by
  rw [addressed, List.filter_append, List.map_append]
  rfl

/-- A port goes to the end of the list of its connection, for which there is room then, and the
other lists stay as they are. -/
theorem Additions.push_spec (a : Additions) (id : Nat) (m : Member) :
    ∃ b, a.push id m = .ok b ∧ b.blocks = a.blocks ∧
      ∀ i, b.membersOf i = a.membersOf i ++ addressed [(id, m)] i := by
  have hroom : id < (a.members.rightpad (id + 1) []).length := by
    rw [List.rightpad, List.length_append, List.length_replicate]
    omega
  have hpadded : ∀ i, (a.members.rightpad (id + 1) [])[i]?.getD [] = a.membersOf i := by
    intro i
    rw [List.rightpad, membersOf, List.getElem?_append]
    split
    next => rfl
    next hi =>
      rw [List.getElem?_eq_none (Nat.le_of_not_lt hi), List.getElem?_replicate]
      split <;> rfl
  have hat := List.getElem?_eq_getElem hroom
  rw [push, hat]
  refine ⟨_, rfl, rfl, fun i => ?_⟩
  rw [membersOf]
  dsimp only
  by_cases hi : id = i
  · subst hi
    rw [List.getElem?_set_self hroom, ← hpadded id, hat]
    simp [addressed]
  · rw [List.getElem?_set_ne hi, hpadded]
    simp [addressed, hi]

namespace Verdict

/-- The power of the block that is added, if one is. -/
def power? : Verdict → Option Nat
  | add power => some power
  | _ => none

end Verdict

namespace Trial

/-- The ports of the block of a trial, each with the connection that it is added to. -/
def ports (t : Trial) (power : Nat) : List (Nat × Member) :=
  [(power, ⟨t.blockName, t.rule.supportPowerPort⟩),
    (t.connection.id, ⟨t.blockName, t.rule.supportBusPort⟩)]

theorem insert_spec (t : Trial) (power : Nat) (a : Additions) :
    ∃ b, t.insert power a = .ok b ∧ b.blocks = a.blocks ++ [t.block power] ∧
      ∀ i, b.membersOf i = a.membersOf i ++ addressed (t.ports power) i := by
  obtain ⟨b, hb, hblocks, hmembers⟩ := a.push_spec power ⟨t.blockName, t.rule.supportPowerPort⟩
  obtain ⟨d, hd, hblocks', hmembers'⟩ :=
    b.push_spec t.connection.id ⟨t.blockName, t.rule.supportBusPort⟩
  refine ⟨{ d with blocks := d.blocks ++ [t.block power] }, ?_, ?_, ?_⟩
  · rw [insert, hb, ok_bind, hd]
    rfl
  · rw [hblocks', hblocks]
  · intro i
    calc d.membersOf i = _ := hmembers' i
      _ = _ := by rw [hmembers, List.append_assoc, ← addressed_append]; rfl

section

variable (c : Circuit) (cs : Connections)

/-- What the rule of a trial does at its connection. -/
def judge (t : Trial) : Except Fault Verdict :=
  (t.judging c cs).result (cs.answers c)

/-- What the trial comes to: the block with some power, or nothing. -/
def Adds (t : Trial) (power : Option Nat) : Prop :=
  (∃ v, t.judge c cs = .ok v ∧ v.power? = power) ∧ ∀ p, power = some p → ∃ k, cs.get p = .ok k

end

variable {c : Circuit} {cs : Connections} {t : Trial}

theorem judge_spec {needs : Bool} {shape : Option Shape} {power : Option Nat}
    (hneeds : needsSupport c t.rule t.connection = .ok needs)
    (hshape : (Inquiry.shape? t.connectionId).result (cs.answers c) = .ok shape)
    (hpower : Support.power? c cs t.rule t.connection = .ok power) :
    ∃ v, t.judge c cs = .ok v ∧
      v.power? = if needs && shape != some .array then power else none := by
  rw [judge, judging, Inquiry.result_bind, Inquiry.result_lift, hneeds, ok_bind]
  cases needs with
  | false => exact ⟨.settled, rfl, rfl⟩
  | true =>
    rw [if_pos rfl, Inquiry.result_bind, hshape, ok_bind]
    by_cases harray : shape = some .array
    · subst harray
      exact ⟨.arrayBus, rfl, rfl⟩
    · rw [if_neg (by simpa using harray), Inquiry.result_bind, Inquiry.result_lift, hpower, ok_bind]
      have hplain : (true && shape != some .array) = true := by simpa using harray
      rw [if_pos hplain]
      cases power with
      | some power => exact ⟨.add power, rfl, rfl⟩
      | none => exact ⟨.unpowered, rfl, rfl⟩

theorem power?_of_judge {v : Verdict} {power : Nat} (hv : t.judge c cs = .ok v)
    (hpower : v.power? = some power) :
    needsSupport c t.rule t.connection = .ok true ∧
      Support.power? c cs t.rule t.connection = .ok (some power) := by
  rw [judge, judging, Inquiry.result_bind, Inquiry.result_lift, bind_eq_ok_iff] at hv
  obtain ⟨needs, hneeds, hv⟩ := hv
  cases needs with
  | false =>
    cases hv
    cases hpower
  | true =>
    rw [if_pos rfl, Inquiry.result_bind, bind_eq_ok_iff] at hv
    obtain ⟨shape, -, hv⟩ := hv
    split at hv
    · cases hv
      cases hpower
    · rw [Inquiry.result_bind, Inquiry.result_lift, bind_eq_ok_iff] at hv
      obtain ⟨found, hfound, hv⟩ := hv
      cases found with
      | none =>
        cases hv
        cases hpower
      | some found =>
        cases hv
        cases hpower
        exact ⟨hneeds, hfound⟩

theorem result_trying (a : Additions) :
    (t.trying c cs a).result (cs.answers c) = t.judge c cs >>= fun v =>
      match v.power? with
      | some power => cs.get power >>= fun _ => t.insert power a
      | none => .ok a := by
  rw [trying, Inquiry.result_bind]
  refine congrArg (t.judge c cs >>= ·) (funext fun v => ?_)
  cases v with
  | settled | arrayBus | unpowered => rfl
  | add power =>
    rw [applying, Inquiry.result_bind, Inquiry.result_lift]
    rfl

/-- One trial adds its block and the ports of it, or nothing. -/
theorem Adds.trying {power : Option Nat} (ht : t.Adds c cs power) (a : Additions) :
    ∃ b, (t.trying c cs a).result (cs.answers c) = .ok b ∧
      b.blocks = a.blocks ++ (power.map t.block).toList ∧
      (∀ i, b.membersOf i = a.membersOf i ++ addressed (power.toList.flatMap t.ports) i) ∧
      (power = none → b = a) := by
  obtain ⟨⟨v, hv, hpower⟩, hget⟩ := ht
  rw [result_trying, hv, ok_bind, hpower]
  cases power with
  | none => exact ⟨a, rfl, by simp, by simp [addressed], fun _ => rfl⟩
  | some power =>
    obtain ⟨k, hk⟩ := hget power rfl
    obtain ⟨b, hb, hblocks, hmembers⟩ := t.insert_spec power a
    refine ⟨b, ?_, hblocks, ?_, by simp⟩
    · dsimp only
      rw [hk, ok_bind, hb]
    · simpa using hmembers

private theorem exists_adds_of_trying {a b : Additions}
    (hb : (t.trying c cs a).result (cs.answers c) = .ok b) : ∃ power, t.Adds c cs power := by
  rw [result_trying, bind_eq_ok_iff] at hb
  obtain ⟨v, hv, hb⟩ := hb
  refine ⟨v.power?, ⟨v, hv, rfl⟩, fun p hp => ?_⟩
  rw [hp] at hb
  obtain ⟨k, hk, -⟩ := bind_eq_ok_iff.mp hb
  exact ⟨k, hk⟩

end Trial

section

variable {c : Circuit} {cs : Connections}

/-- Trials add their blocks in order, and the ports of the blocks where they are addressed to. -/
theorem foldlM_trying_spec {ts : List Trial} {powers : Trial → Option Nat}
    (hts : ∀ t ∈ ts, t.Adds c cs (powers t)) (a : Additions) :
    ∃ b, ts.foldlM (fun a t => (t.trying c cs a).result (cs.answers c)) a = .ok b ∧
      b.blocks = a.blocks ++ ts.filterMap (fun t => (powers t).map t.block) ∧
      (∀ i, b.membersOf i =
        a.membersOf i ++ addressed (ts.flatMap fun t => (powers t).toList.flatMap t.ports) i) ∧
      ((∀ t ∈ ts, powers t = none) → b = a) := by
  induction ts generalizing a with
  | nil => exact ⟨a, rfl, by simp, by simp [addressed], fun _ => rfl⟩
  | cons t ts ih =>
    obtain ⟨hhead, htail⟩ := List.forall_mem_cons.mp hts
    obtain ⟨b, hb, hblocks, hmembers, hnothing⟩ := hhead.trying a
    obtain ⟨d, hd, hblocks', hmembers', hnothing'⟩ := ih htail b
    refine ⟨d, ?_, ?_, ?_, ?_⟩
    · rw [List.foldlM_cons, hb, ok_bind, hd]
    · rw [hblocks', hblocks, List.append_assoc, List.filterMap_cons]
      cases powers t <;> rfl
    · intro i
      rw [hmembers', hmembers, List.append_assoc, List.flatMap_cons, addressed_append]
    · intro hnone
      obtain ⟨hfirst, hrest⟩ := List.forall_mem_cons.mp hnone
      rw [hnothing' hrest, hnothing hfirst]

private theorem plan_eq (registry : Registry) (c : Circuit) (cs : Connections) :
    plan registry c cs = (trials registry cs).foldlM
      (fun a t => (t.trying c cs a).result (cs.answers c)) .empty := by
  rw [plan, Inquiry.result_run, planning, Inquiry.result_foldlM]

theorem plan_spec {registry : Registry} (powers : Trial → Option Nat)
    (hadds : ∀ t ∈ trials registry cs, t.Adds c cs (powers t)) :
    ∃ a, plan registry c cs = .ok a ∧
      a.blocks = (trials registry cs).filterMap (fun t => (powers t).map t.block) ∧
      (∀ i, a.membersOf i =
        addressed ((trials registry cs).flatMap fun t => (powers t).toList.flatMap t.ports) i) ∧
      ((∀ t ∈ trials registry cs, powers t = none) → a = .empty) := by
  rw [plan_eq]
  exact foldlM_trying_spec hadds .empty

theorem exists_adds_of_plan {registry : Registry} {a : Additions}
    (ha : plan registry c cs = .ok a) : ∀ t ∈ trials registry cs, ∃ power, t.Adds c cs power := by
  rw [plan_eq] at ha
  generalize Additions.empty = start at ha
  generalize trials registry cs = ts at ha ⊢
  induction ts generalizing start with
  | nil => simp
  | cons t ts ih =>
    rw [List.foldlM_cons, bind_eq_ok_iff] at ha
    obtain ⟨b, hb, ha⟩ := ha
    exact List.forall_mem_cons.mpr ⟨Trial.exists_adds_of_trying hb, ih b ha⟩

end

end Schematic.Support
