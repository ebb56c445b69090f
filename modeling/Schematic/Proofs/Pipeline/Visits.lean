import Schematic.Proofs.Connection.Partition
import Schematic.Proofs.Declaration.Connects
import Schematic.Proofs.Support.Planning
import Schematic.Proofs.Wrapper.Pins

namespace Schematic

section

variable {α β γ ε : Type}

/-- The entries up to and including the first at which a step fails. -/
def visited (step : α → Except ε β) : List α → List α
  | [] => []
  | a :: as => a :: match step a with
    | .ok _ => visited step as
    | .error _ => []

theorem visited_append (step : α → Except ε β) (xs ys : List α) :
    visited step (xs ++ ys) =
      visited step xs ++ if (xs.mapM step).isOk then visited step ys else [] := by
  induction xs with
  | nil => rfl
  | cons x xs ih =>
    rw [List.cons_append, visited, visited, ih, List.mapM_cons]
    cases step x with
    | error f => rfl
    | ok b =>
      rw [ok_bind]
      cases xs.mapM step <;> rfl

/-- Rows of entries, each with its own step. -/
theorem visited_flatMap (step : β → Except ε γ) (row : α → List β) (as : List α) :
    visited step (as.flatMap row) =
      (visited (fun a => (row a).mapM step) as).flatMap fun a => visited step (row a) := by
  induction as with
  | nil => rfl
  | cons a as ih =>
    rw [List.flatMap_cons, visited_append, visited, List.flatMap_cons, ih]
    cases (row a).mapM step <;> rfl

end

namespace Inquiry

variable {α β γ δ : Type} {answer : Nat → Except Fault Shape}

theorem result_map (f : α → β) (p : Inquiry α) :
    (f <$> p).result answer = (p.result answer).map f := by
  rw [map_eq_pure_bind, result_bind]
  cases p.result answer <;> rfl

theorem asked_map (f : α → β) (p : Inquiry α) : (f <$> p).asked answer = p.asked answer := by
  rw [map_eq_pure_bind, asked_bind]
  cases p.result answer <;> exact List.append_nil _

/-- What is asked first, if the rest asks for nothing. -/
theorem asked_bind_of_rest {p : Inquiry α} {f : α → Inquiry β}
    (hrest : ∀ a, (f a).asked answer = []) : (p >>= f).asked answer = p.asked answer := by
  rw [asked_bind]
  cases p.result answer with
  | error fault => exact List.append_nil _
  | ok a =>
    dsimp only
    rw [hrest, List.append_nil]

section

variable {step : α → Except Fault γ} {positions : α → List Nat} {as : List α}

/-- A step asks for its own positions, and those after it are come to only if it succeeds. -/
theorem asked_step {p : Inquiry β} {rest : β → Inquiry δ} {a : α}
    (hasked : p.asked answer = positions a) (hresult : (p.result answer).isOk = (step a).isOk)
    (hrest : ∀ b, (rest b).asked answer = (visited step as).flatMap positions) :
    (p >>= rest).asked answer = (visited step (a :: as)).flatMap positions := by
  rw [asked_bind, visited, List.flatMap_cons, hasked]
  cases hb : p.result answer <;> cases hstep : step a <;> rw [hb, hstep] at hresult
  case error.error => rfl
  case ok.ok => exact congrArg (_ ++ ·) (hrest _)
  all_goals cases hresult

private theorem asked_mapM {f : α → Inquiry β} (hasked : ∀ a ∈ as, (f a).asked answer = positions a)
    (hresult : ∀ a ∈ as, ((f a).result answer).isOk = (step a).isOk) :
    (as.mapM f).asked answer = (visited step as).flatMap positions := by
  induction as with
  | nil => rfl
  | cons a as ih =>
    obtain ⟨hhead, htail⟩ := List.forall_mem_cons.mp hasked
    obtain ⟨hok, hoks⟩ := List.forall_mem_cons.mp hresult
    rw [List.mapM_cons]
    exact asked_step hhead hok fun _ => (asked_bind_of_rest fun _ => rfl).trans (ih htail hoks)

private theorem asked_forM {f : α → Inquiry PUnit}
    (hasked : ∀ a ∈ as, (f a).asked answer = positions a)
    (hresult : ∀ a ∈ as, ((f a).result answer).isOk = (step a).isOk) :
    (as.forM f).asked answer = (visited step as).flatMap positions := by
  induction as with
  | nil => rfl
  | cons a as ih =>
    obtain ⟨hhead, htail⟩ := List.forall_mem_cons.mp hasked
    obtain ⟨hok, hoks⟩ := List.forall_mem_cons.mp hresult
    exact asked_step hhead hok fun _ => ih htail hoks

/-- Steps that ask and fail alike, whatever was made before them. -/
theorem asked_foldlM {f : β → α → Inquiry β}
    (hasked : ∀ a ∈ as, ∀ b, (f b a).asked answer = positions a)
    (hresult : ∀ a ∈ as, ∀ b, ((f b a).result answer).isOk = (step a).isOk) (b : β) :
    (as.foldlM f b).asked answer = (visited step as).flatMap positions := by
  induction as generalizing b with
  | nil => rfl
  | cons a as ih =>
    obtain ⟨hhead, htail⟩ := List.forall_mem_cons.mp hasked
    obtain ⟨hok, hoks⟩ := List.forall_mem_cons.mp hresult
    rw [List.foldlM_cons]
    exact asked_step (hhead b) (hok b) fun b' => ih htail hoks b'

end

/-- Entries that ask for one position each, if at all. -/
theorem flatMap_positions (as : List α) (asks : α → Bool) (position : α → Nat) :
    (as.flatMap fun a => if asks a then [position a] else []) =
      (as.filter asks).map position := by
  induction as with
  | nil => rfl
  | cons a as ih =>
    rw [List.flatMap_cons, ih, List.filter_cons]
    cases asks a <;> rfl

end Inquiry

namespace Connections

variable {circuit : Circuit} {cs : Connections}

theorem asked_checking (circuit : Circuit) (cs : Connections) :
    cs.checking.asked (cs.answers circuit) =
      (visited (fun e => e.1.shape circuit) cs.list.zipIdx).map (·.2) := by
  rw [checking, List.map_eq_flatMap]
  refine Inquiry.asked_forM (fun e _ => Inquiry.asked_bind_of_rest fun _ => rfl) fun e he => ?_
  rw [Inquiry.result_bind, Inquiry.result_shape,
    answers_of_getElem? (List.mem_zipIdx_iff_getElem?.mp he)]
  cases e.1.shape circuit <;> rfl

/-- A connection whose members exist can be listed, also if they disagree. -/
theorem isOk_result_describingLine {e : Connection × Nat} (he : e ∈ cs.list.zipIdx) :
    ((describingLine circuit e).result (cs.answers circuit)).isOk =
      (e.1.members.mapM circuit.endpoint).isOk := by
  rw [describingLine, Inquiry.result_bind, Inquiry.result_shape?,
    answers_of_getElem? (List.mem_zipIdx_iff_getElem?.mp he), memberPaths]
  cases hmembers : e.1.members.mapM circuit.endpoint with
  | error f =>
    cases e.1.shape circuit with
    | ok s => rfl
    | error g =>
      dsimp only
      split <;> rfl
  | ok es =>
    cases hshape : e.1.shape circuit with
    | ok s => rfl
    | error g =>
      have hlost : g.isLost = false := by
        have hunknown : e.1.known = none := by
          cases hknown : e.1.known with
          | none => rfl
          | some s => cases (Connection.shape_of_known hknown circuit).symm.trans hshape
        rw [Connection.shape_of_unknown hunknown] at hshape
        refine Connection.isLost_of_shapeIn_eq_error (fun r hr => ?_) hshape
        obtain ⟨x, -, hx⟩ := exists_of_forall₂_of_mem (mapM_eq_ok_iff_forall₂.mp hmembers).flip hr
        exact ⟨x, Circuit.endpoint_eq_ok_iff.mp hx⟩
      dsimp only
      rw [hlost]
      rfl

theorem asked_describing (circuit : Circuit) (cs : Connections) :
    (cs.describing circuit).asked (cs.answers circuit) =
      (visited (fun e => e.1.members.mapM circuit.endpoint) cs.list.zipIdx).map (·.2) := by
  rw [describing, Inquiry.asked_bind_of_rest fun _ => rfl, List.map_eq_flatMap]
  refine Inquiry.asked_mapM (fun e _ => ?_) fun e he => isOk_result_describingLine he
  rw [describingLine, Inquiry.asked_bind_of_rest fun _ => ?_, Inquiry.asked_shape?]
  exact Inquiry.asked_bind_of_rest fun _ => rfl

theorem asked_about {α : Type} (hcs : cs.Indexed) (name : String) {question : Nat → Inquiry α}
    {answer : Nat → Except Fault Shape} (hquestion : ∀ i, (question i).asked answer = [i]) :
    (cs.about name question).asked answer = (cs.byName.lookup name).toList := by
  obtain ⟨found, hfound, hlookup⟩ := hcs.find?_eq name
  rw [about, Inquiry.asked_bind, Inquiry.asked_lift, Inquiry.result_lift, hfound, ← hlookup]
  cases found with
  | none => rfl
  | some e =>
    dsimp only
    rw [Inquiry.asked_bind_of_rest fun _ => rfl, hquestion]
    rfl

end Connections

namespace Wrapper

/-- The labelled pins of all connectors, in the order of connectors and then of ports. -/
def sites (circuit : Circuit) (cs : Connections) : List Site :=
  (connectors circuit).flatMap fun entry => ((sitesOf cs entry).toOption).getD []

private theorem asked_adapting (registry : Registry) (circuit : Circuit) (s : Site)
    (answer : Nat → Except Fault Shape) :
    (adapting registry circuit s).asked answer =
      if (pinNumber? s.port.name).isSome then [s.connectionId] else [] := by
  rw [adapting]
  cases pinNumber? s.port.name with
  | none => rfl
  | some number =>
    dsimp only
    rw [Inquiry.asked_bind_of_rest fun isArray => ?_, Inquiry.asked_isArray]
    · rfl
    cases isArray with
    | true => rfl
    | false =>
      rw [if_neg Bool.false_ne_true, Inquiry.asked_bind_of_rest fun types => ?_, Inquiry.asked_lift]
      cases registry.adapter? types <;> rfl

private theorem exists_sitesOf {cs : Connections} (hcs : cs.Indexed) (entry : Circuit.Node × Nat) :
    ∃ sites, sitesOf cs entry = .ok sites := by
  have hsite : ∀ port ∈ entry.1.ports.zipIdx, ∃ site,
      siteAt? cs entry.1 entry.2 port = .ok site := by
    intro port _
    obtain ⟨found, hfound⟩ := hcs.exists_owner? ⟨entry.2, port.2⟩
    rw [siteAt?, hfound]
    cases found with
    | none => exact ⟨none, rfl⟩
    | some e => exact ⟨some _, rfl⟩
  obtain ⟨found, hfound⟩ := exists_mapM_eq_ok hsite
  rw [sitesOf, hfound]
  exact ⟨_, rfl⟩

theorem asked_wrapping {cs : Connections} (hcs : cs.Indexed) (registry : Registry)
    (circuit : Circuit) :
    (wrapping registry circuit cs).asked (cs.answers circuit) =
      ((visited (adapt registry circuit cs) (sites circuit cs)).filter fun s =>
        (pinNumber? s.port.name).isSome).map (·.connectionId) := by
  rw [sites, visited_flatMap, ← Inquiry.flatMap_positions, List.flatMap_assoc, wrapping]
  refine Inquiry.asked_mapM (fun entry _ => ?_) fun entry _ => ?_
  · obtain ⟨found, hfound⟩ := exists_sitesOf hcs entry
    rw [wrappingOne, hfound, Inquiry.asked_bind]
    refine (Inquiry.asked_bind_of_rest fun _ => rfl).trans ?_
    exact Inquiry.asked_mapM (fun s _ => asked_adapting registry circuit s _) fun s _ => rfl
  · obtain ⟨found, hfound⟩ := exists_sitesOf hcs entry
    rw [wrappingOne, hfound, Inquiry.result_bind, Inquiry.result_lift, ok_bind,
      Inquiry.result_bind, Inquiry.result_mapM]
    change (found.mapM (adapt registry circuit cs) >>= _).isOk =
      (found.mapM (adapt registry circuit cs)).isOk
    cases found.mapM (adapt registry circuit cs) <;> rfl

end Wrapper

namespace Support

variable {circuit : Circuit} {cs : Connections}

/-- The trial is at a connection that carries the bus and has no support block of it. -/
def Trial.asks (circuit : Circuit) (t : Trial) : Bool :=
  (needsSupport circuit t.rule t.connection).toOption == some true

theorem Trial.asked_judging (circuit : Circuit) (cs : Connections) (t : Trial)
    (answer : Nat → Except Fault Shape) :
    (t.judging circuit cs).asked answer = if t.asks circuit then [t.connectionId] else [] := by
  rw [judging, asks, Inquiry.asked_bind, Inquiry.asked_lift, Inquiry.result_lift]
  cases needsSupport circuit t.rule t.connection with
  | error f => rfl
  | ok needs =>
    cases needs with
    | false => rfl
    | true =>
      refine (Inquiry.asked_bind_of_rest fun shape => ?_).trans (Inquiry.asked_shape? _)
      split
      · rfl
      · rw [Inquiry.asked_bind_of_rest fun power => ?_, Inquiry.asked_lift]
        cases power <;> rfl

/-- The power of a block that is added leads to a connection. -/
theorem exists_get_of_power? (hcs : cs.Indexed) {rule : BusRule} {k : Connection} {power : Nat}
    (hpower : power? circuit cs rule k = .ok (some power)) : ∃ d, cs.get power = .ok d := by
  obtain ⟨m, -, hm⟩ := exists_of_findSomeM?_eq_some hpower
  obtain ⟨e, -, hm⟩ := bind_eq_ok_iff.mp hm
  split at hm
  · obtain ⟨name, -, hname⟩ := exists_of_findSomeM?_eq_some hm
    split at hname
    · cases hname
    · obtain ⟨found, hfound, hid⟩ := bind_eq_ok_iff.mp hname
      cases found with
      | none => cases hid
      | some found =>
        cases hid
        obtain ⟨hat, -⟩ := hcs.owner?_eq_some_iff.mp hfound
        dsimp only
        rw [hcs.ids _ _ hat]
        exact ⟨_, Connections.get_of_getElem? hat⟩
  · cases hm

theorem Trial.isOk_result_trying (hcs : cs.Indexed) (t : Trial) (a : Additions) :
    ((t.trying circuit cs a).result (cs.answers circuit)).isOk = (t.judge circuit cs).isOk := by
  rw [result_trying]
  cases hv : t.judge circuit cs with
  | error f => rfl
  | ok v =>
    rw [ok_bind]
    cases hpower : v.power? with
    | none => rfl
    | some power =>
      obtain ⟨d, hd⟩ := exists_get_of_power? hcs (power?_of_judge hv hpower).2
      obtain ⟨b, hb, -⟩ := t.insert_spec power a
      dsimp only
      rw [hd, ok_bind, hb]
      rfl

theorem asked_planning (hcs : cs.Indexed) (registry : Registry) (circuit : Circuit) :
    (planning registry circuit cs).asked (cs.answers circuit) =
      ((visited (Trial.judge circuit cs) (trials registry cs)).filter (Trial.asks circuit)).map
        (·.connectionId) := by
  rw [planning, ← Inquiry.flatMap_positions]
  refine Inquiry.asked_foldlM (fun t _ a => ?_)
    (fun t _ a => t.isOk_result_trying hcs a) Additions.empty
  rw [Trial.trying, Inquiry.asked_bind_of_rest fun v => ?_, Trial.asked_judging]
  cases v with
  | settled | arrayBus | unpowered => rfl
  | add power =>
    rw [Trial.applying, Inquiry.asked_bind_of_rest fun _ => rfl, Inquiry.asked_lift]

end Support

theorem Declarations.asked_emitting (circuit : Circuit) (cs : Connections)
    (wrappers : List Wrapper) (additions : Support.Additions) (header : ModuleHeader) :
    (emitting circuit cs wrappers additions header).asked (cs.answers circuit) =
      if (Declaration.placeBlocks circuit cs wrappers additions).isOk then
        (visited (Declaration.ofConnection circuit cs additions) cs.list.zipIdx).map (·.2)
      else [] := by
  rw [emitting, Inquiry.asked_bind, Inquiry.asked_lift, Inquiry.result_lift]
  cases Declaration.placeBlocks circuit cs wrappers additions with
  | error f => rfl
  | ok placed =>
    refine (Inquiry.asked_bind_of_rest fun _ => rfl).trans ?_
    have hok : (Except.ok placed : Except Fault _).isOk = true := rfl
    rw [if_pos hok, List.map_eq_flatMap]
    refine Inquiry.asked_mapM (fun e _ => ?_) fun e _ => rfl
    rw [Declaration.connecting, Inquiry.asked_bind_of_rest fun _ => ?_, Inquiry.asked_isArray]
    exact Inquiry.asked_bind_of_rest fun _ => rfl

end Schematic
