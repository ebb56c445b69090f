import Schematic.Command.Options

namespace Schematic

/-- The value of the option that asks for a stage. -/
def Stage.flag : Stage → String
  | hdl => "hdl"
  | result => "result"
  | graph => "graph"
  | connections => "connections"
  | buildInfo => "build-info"

theorem Stage.ofName?_flag (s : Stage) : ofName? s.flag = some s := by
  cases s <;> rfl

namespace Command

/-- The arguments that ask for a stage: the option and its value, apart or in one. -/
inductive Asks (s : Stage) : List String → Prop
  | spaced : Asks s ["--emit", s.flag]
  | joined : Asks s ["--emit=" ++ s.flag]

def Draft.withStage (s : Stage) (d : Draft) : Draft :=
  { d with stage := some s }

def Request.withStage (s : Stage) : Request → Request
  | .run c => .run { c with stage := s }
  | .version => .version
  | .misuse => .misuse

private theorem orMisuse_map (o : Option Draft) (g : Draft → Draft) (f : Draft → Request) :
    orMisuse (o.map g) f = orMisuse o fun d => f (g d) := by
  cases o <;> rfl

private theorem withStage_orMisuse (s : Stage) (o : Option Draft) (f : Draft → Request) :
    (orMisuse o f).withStage s = orMisuse o fun d => (f d).withStage s := by
  cases o <;> rfl

theorem orMisuse_eq_run_iff {o : Option Draft} {f : Draft → Request} {c : Command} :
    orMisuse o f = .run c ↔ ∃ d, o = some d ∧ f d = .run c := by
  cases o <;> simp [orMisuse]

private theorem addSource?_withStage (s : Stage) (d : Draft) (path : String) :
    (d.withStage s).addSource? path = (d.addSource? path).map (Draft.withStage s) := by
  unfold Draft.addSource?
  change (Draft.path? d.source path >>= _) = _
  cases Draft.path? d.source path <;> rfl

/-- With a stage set, another one is refused and all else is as before. -/
theorem set?_withStage (s : Stage) (d : Draft) (setting : Setting) (value : String) :
    (d.withStage s).set? setting value =
      (if setting = .emit then none else d.set? setting value).map (Draft.withStage s) := by
  cases setting with
  | emit => rfl
  | output =>
    change (Draft.path? d.output value >>= _) = (Draft.path? d.output value >>= _).map _
    cases Draft.path? d.output value <;> rfl
  | library =>
    change (Draft.path? d.library value >>= _) = (Draft.path? d.library value >>= _).map _
    cases Draft.path? d.library value <;> rfl
  | moduleName =>
    obtain ⟨_, _, _, _, moduleName, _, _⟩ := d
    cases moduleName <;> rfl
  | moduleBase =>
    obtain ⟨_, _, _, _, _, moduleBase, _⟩ := d
    cases moduleBase <;> rfl

private theorem sources?_withStage (s : Stage) (d : Draft) (rest : List String) :
    sources? (d.withStage s) rest = (sources? d rest).map (Draft.withStage s) := by
  induction rest generalizing d with
  | nil => rfl
  | cons a rest ih =>
    rw [sources?, sources?, addSource?_withStage]
    cases d.addSource? a with
    | none => rfl
    | some d => exact ih d

private theorem finish_withStage (s t : Stage) (d : Draft) :
    (d.withStage t).finish = (d.withStage s).finish.withStage t := by
  obtain ⟨source, _⟩ := d
  cases source <;> rfl

/-- Arguments are read alike after either stage. -/
theorem parseFrom_withStage (s t : Stage) : ∀ (rest : List String) (d : Draft),
    parseFrom (d.withStage t) rest = (parseFrom (d.withStage s) rest).withStage t
  | [], d => finish_withStage s t d
  | a :: rest, d => by
    -- Going on with a draft keeps the two readings alike if going on with its rest does.
    have hstep : ∀ (o : Option Draft) (f : Draft → Request),
        (∀ d : Draft, f (d.withStage t) = (f (d.withStage s)).withStage t) →
          orMisuse (o.map (Draft.withStage t)) f =
            (orMisuse (o.map (Draft.withStage s)) f).withStage t := by
      intro o f hf
      rw [orMisuse_map, orMisuse_map, withStage_orMisuse]
      simp only [hf]
    rw [parseFrom, parseFrom]
    cases form a with
    | source path =>
      simp only [addSource?_withStage]
      exact hstep _ _ (parseFrom_withStage s t rest)
    | setting k attached =>
      cases attached with
      | some value =>
        simp only [set?_withStage]
        exact hstep _ _ (parseFrom_withStage s t rest)
      | none =>
        cases rest with
        | nil => rfl
        | cons value rest =>
          simp only [set?_withStage]
          split
          · exact hstep _ _ (parseFrom_withStage s t rest)
          · rfl
    | verbose =>
      change (if d.verbose = true then _ else _) =
        (if d.verbose = true then _ else _ : Request).withStage t
      split
      · rfl
      · exact parseFrom_withStage s t rest { d with verbose := true }
    | version => rfl
    | separator =>
      simp only [sources?_withStage]
      exact hstep _ _ (finish_withStage s t)
    | unknown => rfl

theorem Asks.parseFrom_append {s : Stage} {ask : List String} (hask : Asks s ask) (d : Draft)
    (rest : List String) :
    parseFrom d (ask ++ rest) = orMisuse (d.set? .emit s.flag) fun d => parseFrom d rest := by
  cases hask with
  | spaced => cases s <;> rfl
  | joined => cases s <;> rfl

theorem Asks.exists_head {s : Stage} {ask : List String} (hask : Asks s ask) :
    ∃ head tail, ask = head :: tail ∧ isValue head = false := by
  cases hask with
  | spaced => exact ⟨_, _, rfl, rfl⟩
  | joined =>
    refine ⟨_, _, rfl, ?_⟩
    cases s <;> rfl

theorem set?_emit_eq_some_iff {s : Stage} {d e : Draft} :
    d.set? .emit s.flag = some e ↔ d.stage = none ∧ e = d.withStage s := by
  have hset : d.set? .emit s.flag = if d.stage = none then some (d.withStage s) else none := by
    rw [Draft.set?, s.ofName?_flag]
    obtain ⟨_, _, stage, _⟩ := d
    cases stage <;> rfl
  rw [hset]
  by_cases hstage : d.stage = none
  · simp [hstage, eq_comm]
  · simp [hstage]

private theorem eq_separator_of_form {a : String} (ha : form a = .separator) : a = "--" := by
  have hlong : ∀ cs, longForm cs ≠ .separator := by
    intro cs
    unfold longForm
    dsimp only
    repeat' split
    all_goals simp
  have hshort : ∀ cs, shortForm cs ≠ .separator := by
    intro cs
    unfold shortForm
    split <;> simp
  unfold form at ha
  split at ha
  next hchars => exact String.toList_inj.mp hchars
  next => exact absurd ha (hlong _)
  next => cases ha
  next => exact absurd ha (hshort _)
  next => cases ha

/-- Another stage in the place of one that arguments ask for makes a run of that stage. -/
theorem parseFrom_asks {s t : Stage} {ask other : List String} (hask : Asks s ask)
    (hother : Asks t other) (after : List String) :
    ∀ (before : List String) (d : Draft) (c : Command), "--" ∉ before →
      parseFrom d (before ++ (ask ++ after)) = .run c →
        parseFrom d (before ++ (other ++ after)) = .run { c with stage := t }
  | [], d, c, _, hrun => by
    rw [List.nil_append, hask.parseFrom_append, orMisuse_eq_run_iff] at hrun
    obtain ⟨e, he, hrun⟩ := hrun
    obtain ⟨hstage, rfl⟩ := set?_emit_eq_some_iff.mp he
    rw [List.nil_append, hother.parseFrom_append, set?_emit_eq_some_iff.mpr ⟨hstage, rfl⟩]
    change parseFrom (d.withStage t) after = _
    rw [parseFrom_withStage s t, hrun]
    rfl
  | a :: before, d, c, hbefore, hrun => by
    have hne : "--" ≠ a := List.ne_of_not_mem_cons hbefore
    have hbefore : "--" ∉ before := List.not_mem_of_not_mem_cons hbefore
    rw [List.cons_append, parseFrom] at hrun ⊢
    cases hform : form a with
    | source path =>
      rw [hform, orMisuse_eq_run_iff] at hrun
      obtain ⟨e, he, hrun⟩ := hrun
      exact orMisuse_eq_run_iff.mpr
        ⟨e, he, parseFrom_asks hask hother after before e c hbefore hrun⟩
    | setting k attached =>
      cases attached with
      | some value =>
        rw [hform, orMisuse_eq_run_iff] at hrun
        obtain ⟨e, he, hrun⟩ := hrun
        exact orMisuse_eq_run_iff.mpr
          ⟨e, he, parseFrom_asks hask hother after before e c hbefore hrun⟩
      | none =>
        cases before with
        | nil =>
          -- The value of the option before would be the option that asks for the stage.
          obtain ⟨head, tail, rfl, hhead⟩ := hask.exists_head
          simp [hform, hhead] at hrun
        | cons value before =>
          have hbefore : "--" ∉ before := List.not_mem_of_not_mem_cons hbefore
          simp only [hform, List.cons_append] at hrun ⊢
          by_cases hvalue : isValue value = true
          · rw [if_pos hvalue, orMisuse_eq_run_iff] at hrun
            obtain ⟨e, he, hrun⟩ := hrun
            rw [if_pos hvalue]
            exact orMisuse_eq_run_iff.mpr
              ⟨e, he, parseFrom_asks hask hother after before e c hbefore hrun⟩
          · rw [if_neg hvalue] at hrun
            cases hrun
    | verbose =>
      simp only [hform] at hrun ⊢
      by_cases hverbose : d.verbose = true
      · rw [if_pos hverbose] at hrun
        cases hrun
      · rw [if_neg hverbose] at hrun ⊢
        exact parseFrom_asks hask hother after before _ c hbefore hrun
    | version =>
      rw [hform] at hrun
      cases hrun
    | separator => exact absurd (eq_separator_of_form hform).symm hne
    | unknown =>
      rw [hform] at hrun
      cases hrun

end Command

end Schematic
