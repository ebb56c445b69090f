import Mathlib.Data.List.Induction
import Mathlib.Data.List.Nodup
import Mathlib.Data.List.Perm.Basic

namespace Schematic

variable {ε α β : Type}

theorem bind_eq_ok_iff {x : Except ε α} {f : α → Except ε β} {b : β} :
    (x >>= f) = .ok b ↔ ∃ a, x = .ok a ∧ f a = .ok b := by
  cases x <;> simp [bind, Except.bind]

@[simp] theorem ok_bind {a : α} {f : α → Except ε β} : (Except.ok a >>= f) = f a :=
  rfl

@[simp] theorem throw_bind {e : ε} {f : α → Except ε β} : (throw e >>= f) = throw e :=
  rfl

theorem error_bind {e : ε} {f : α → Except ε β} : (Except.error e >>= f) = .error e :=
  rfl

@[simp] theorem throw_ne_ok {e : ε} {a : α} : (throw e : Except ε α) ≠ .ok a := by
  simp [throw, throwThe, MonadExceptOf.throw]

@[simp] theorem pure_eq_ok_iff {a b : α} : (pure a : Except ε α) = .ok b ↔ b = a := by
  simp [pure, Except.pure, eq_comm]

theorem bind_pure_eq_error_iff {x : Except ε α} {h : α → β} {e : ε} :
    (x >>= fun a => (pure (h a) : Except ε β)) = .error e ↔ x = .error e := by
  cases x <;> simp [bind, Except.bind, pure, Except.pure]

theorem map_bind_eq {γ : Type} {x : Except ε α} {h : α → β} {f : β → Except ε γ} :
    (x.map h >>= f) = x >>= fun a => f (h a) := by
  cases x <;> rfl

theorem mapError_bind {ε' : Type} {x : Except ε α} {f : α → Except ε β} {h : ε → ε'} :
    (x >>= f).mapError h = x.mapError h >>= fun a => (f a).mapError h := by
  cases x <;> rfl

theorem mapError_eq_ok_iff {ε' : Type} {x : Except ε α} {f : ε → ε'} {a : α} :
    x.mapError f = .ok a ↔ x = .ok a := by
  cases x <;> simp [Except.mapError]

theorem eq_ok_of_toOption_eq_some {x : Except ε α} {a : α} (hx : x.toOption = some a) :
    x = .ok a := by
  cases x with
  | error e => cases hx
  | ok b => rw [Option.some.inj hx]

/-- If each step succeeds under a condition and then gives a known value, a sequence of steps
succeeds if the condition holds all along, and gives the values in order. -/
theorem mapM_eq_ok_iff {f : α → Except ε β} {good : α → Prop} {value : α → β} {as : List α}
    (hstep : ∀ a ∈ as, ∀ b, f a = .ok b ↔ good a ∧ b = value a) (bs : List β) :
    as.mapM f = .ok bs ↔ (∀ a ∈ as, good a) ∧ bs = as.map value := by
  induction as generalizing bs with
  | nil => simp
  | cons a as ih =>
    have hrest := ih fun b hb => hstep b (List.mem_cons_of_mem a hb)
    simp only [List.mapM_cons, bind_eq_ok_iff, hstep a List.mem_cons_self, hrest, pure_eq_ok_iff,
      List.forall_mem_cons, List.map_cons]
    constructor
    · rintro ⟨b, ⟨hgood, rfl⟩, bs, ⟨hall, rfl⟩, rfl⟩
      exact ⟨⟨hgood, hall⟩, rfl⟩
    · rintro ⟨⟨hgood, hall⟩, rfl⟩
      exact ⟨_, ⟨hgood, rfl⟩, _, ⟨hall, rfl⟩, rfl⟩

theorem mapM_eq_ok_map {f : α → Except ε β} {value : α → β} {as : List α}
    (hstep : ∀ a ∈ as, f a = .ok (value a)) : as.mapM f = .ok (as.map value) := by
  have hiff : ∀ a ∈ as, ∀ b, f a = .ok b ↔ True ∧ b = value a := by
    intro a ha b
    rw [hstep a ha, Except.ok.injEq, true_and]
    exact eq_comm
  exact (mapM_eq_ok_iff hiff _).mpr ⟨fun _ _ => trivial, rfl⟩

theorem mapM_eq_ok_iff_forall₂ {f : α → Except ε β} {as : List α} {bs : List β} :
    as.mapM f = .ok bs ↔ List.Forall₂ (fun a b => f a = .ok b) as bs := by
  induction as generalizing bs with
  | nil => rw [List.mapM_nil, pure_eq_ok_iff, List.forall₂_nil_left_iff]
  | cons a as ih =>
    rw [List.mapM_cons, List.forall₂_cons_left_iff]
    simp only [bind_eq_ok_iff, pure_eq_ok_iff, ih]
    constructor
    · intro hsteps
      obtain ⟨b, hb, bs, hbs, rfl⟩ := hsteps
      exact ⟨b, bs, hb, hbs, rfl⟩
    · intro hsteps
      obtain ⟨b, bs, hb, hbs, rfl⟩ := hsteps
      exact ⟨b, hb, bs, hbs, rfl⟩

theorem exists_mapM_eq_ok {f : α → Except ε β} {as : List α}
    (hf : ∀ a ∈ as, ∃ b, f a = .ok b) : ∃ bs, as.mapM f = .ok bs := by
  induction as with
  | nil => exact ⟨[], rfl⟩
  | cons a as ih =>
    obtain ⟨⟨b, hb⟩, hrest⟩ := List.forall_mem_cons.mp hf
    obtain ⟨bs, hbs⟩ := ih hrest
    exact ⟨b :: bs, mapM_eq_ok_iff_forall₂.mpr (.cons hb (mapM_eq_ok_iff_forall₂.mp hbs))⟩

theorem forM_eq_ok_iff {f : α → Except ε PUnit} {as : List α} :
    as.forM f = .ok () ↔ ∀ a ∈ as, f a = .ok () := by
  induction as with
  | nil => simp [List.forM]
  | cons a as ih =>
    rw [List.forM, bind_eq_ok_iff, List.forall_mem_cons, ← ih]
    constructor
    · rintro ⟨_, hhead, htail⟩
      exact ⟨hhead, htail⟩
    · rintro ⟨hhead, htail⟩
      exact ⟨_, hhead, htail⟩

/-- Steps on images that do what other steps do on the elements give what these give. -/
theorem mapM_map_congr {m : Type → Type} [Monad m] [LawfulMonad m] {γ : Type} {h : α → β}
    {f : β → m γ} {g : α → m γ} {as : List α} (hstep : ∀ a ∈ as, f (h a) = g a) :
    (as.map h).mapM f = as.mapM g := by
  induction as with
  | nil => rfl
  | cons a as ih =>
    rw [List.map_cons, List.mapM_cons, List.mapM_cons, hstep a List.mem_cons_self,
      ih fun b hb => hstep b (List.mem_cons_of_mem a hb)]

/-- Mapping what each step gives is mapping what the sequence gives. -/
theorem mapM_map_eq {γ : Type} (f : α → Except ε β) (h : β → γ) (as : List α) :
    (as.mapM fun a => (f a).map h) = (as.mapM f).map (List.map h) := by
  induction as with
  | nil => rfl
  | cons a as ih =>
    rw [List.mapM_cons, List.mapM_cons, ih]
    cases f a with
    | error e => rfl
    | ok b => cases as.mapM f <;> rfl

theorem mapM_mapError_eq {ε' : Type} (f : α → Except ε β) (h : ε → ε') (as : List α) :
    (as.mapM fun a => (f a).mapError h) = (as.mapM f).mapError h := by
  induction as with
  | nil => rfl
  | cons a as ih =>
    rw [List.mapM_cons, List.mapM_cons, ih, mapError_bind]
    simp only [mapError_bind]
    rfl

theorem forM_map_congr {m : Type → Type} [Monad m] {h : α → β} {f : β → m PUnit}
    {g : α → m PUnit} {as : List α} (hstep : ∀ a ∈ as, f (h a) = g a) :
    (as.map h).forM f = as.forM g := by
  induction as with
  | nil => rfl
  | cons a as ih =>
    rw [List.map_cons, List.forM, List.forM, hstep a List.mem_cons_self,
      ih fun b hb => hstep b (List.mem_cons_of_mem a hb)]

theorem mapM_eq_some_iff {f : α → Option β} {as : List α} {bs : List β} :
    as.mapM f = some bs ↔ List.Forall₂ (fun a b => f a = some b) as bs := by
  induction as generalizing bs with
  | nil => simp [eq_comm]
  | cons a as ih =>
    rw [List.mapM_cons, List.forall₂_cons_left_iff]
    simp only [Option.bind_eq_bind, Option.bind_eq_some_iff, Option.pure_def, Option.some.injEq, ih]
    constructor
    · rintro ⟨b, hb, bs, hbs, rfl⟩
      exact ⟨b, bs, hb, hbs, rfl⟩
    · rintro ⟨b, bs, hb, hbs, rfl⟩
      exact ⟨b, hb, bs, hbs, rfl⟩

theorem exists_of_forall₂_of_mem {R : α → β → Prop} {as : List α} {bs : List β}
    (hall : List.Forall₂ R as bs) {b : β} (hb : b ∈ bs) : ∃ a ∈ as, R a b := by
  induction hall with
  | nil => cases hb
  | cons hhead _ ih =>
    rcases List.mem_cons.mp hb with rfl | hb
    · exact ⟨_, List.mem_cons_self, hhead⟩
    · obtain ⟨a, ha, hab⟩ := ih hb
      exact ⟨a, List.mem_cons_of_mem _ ha, hab⟩

theorem map_eq_map_of_forall₂ {γ : Type} {h : α → γ} {k : β → γ} {as : List α} {bs : List β}
    (hall : List.Forall₂ (fun a b => h a = k b) as bs) : as.map h = bs.map k := by
  induction hall with
  | nil => rfl
  | cons hhead _ ih => rw [List.map_cons, List.map_cons, hhead, ih]

/-- Two lists that stand beside each other have the same order, if the pairs in them do. -/
theorem pairwise_iff_of_forall₂ {R : α → β → Prop} {S : α → α → Prop} {T : β → β → Prop}
    {as : List α} {bs : List β} (hall : List.Forall₂ R as bs)
    (hpair : ∀ a b a' b', R a b → R a' b' → (S a a' ↔ T b b')) :
    as.Pairwise S ↔ bs.Pairwise T := by
  induction hall with
  | nil => simp
  | @cons a b as bs hhead htail ih =>
    have hfirst : (∀ a' ∈ as, S a a') ↔ ∀ b' ∈ bs, T b b' := by
      constructor
      · intro hafter b' hb'
        obtain ⟨a', ha', hbeside⟩ := exists_of_forall₂_of_mem htail hb'
        exact (hpair a b a' b' hhead hbeside).mp (hafter a' ha')
      · intro hafter a' ha'
        obtain ⟨b', hb', hbeside⟩ := exists_of_forall₂_of_mem htail.flip ha'
        exact (hpair a b a' b' hhead hbeside).mpr (hafter b' hb')
    rw [List.pairwise_cons, List.pairwise_cons, hfirst, ih]

/-- Whatever a step fails with has a property. -/
def FailsOnly (P : ε → Prop) (x : Except ε α) : Prop :=
  ∀ e, x = .error e → P e

section

variable {P : ε → Prop}

theorem failsOnly_ok (a : α) : FailsOnly P (.ok a : Except ε α) :=
  nofun

theorem failsOnly_error {e : ε} (he : P e) : FailsOnly P (.error e : Except ε α) := by
  intro e' he'
  cases he'
  exact he

theorem FailsOnly.bind {x : Except ε α} {f : α → Except ε β} (hx : FailsOnly P x)
    (hf : ∀ a, x = .ok a → FailsOnly P (f a)) : FailsOnly P (x >>= f) := by
  cases x with
  | error e => exact failsOnly_error (hx e rfl)
  | ok a => exact hf a rfl

theorem FailsOnly.mapError {ε' : Type} {Q : ε' → Prop} {x : Except ε α} {f : ε → ε'}
    (hx : FailsOnly P x) (hf : ∀ e, P e → Q (f e)) : FailsOnly Q (x.mapError f) := by
  cases x with
  | error e => exact failsOnly_error (hf e (hx e rfl))
  | ok a => exact failsOnly_ok a

theorem FailsOnly.mapError_eq_self {x : Except ε α} {f : ε → ε}
    (hx : FailsOnly (fun e => f e = e) x) : x.mapError f = x := by
  cases x with
  | error e => exact congrArg Except.error (hx e rfl)
  | ok a => rfl

theorem failsOnly_mapM {f : α → Except ε β} {as : List α} (hf : ∀ a ∈ as, FailsOnly P (f a)) :
    FailsOnly P (as.mapM f) := by
  induction as with
  | nil => exact failsOnly_ok []
  | cons a as ih =>
    obtain ⟨hhead, htail⟩ := List.forall_mem_cons.mp hf
    rw [List.mapM_cons]
    exact hhead.bind fun b _ => (ih htail).bind fun bs _ => failsOnly_ok (b :: bs)

theorem failsOnly_forM {f : α → Except ε Unit} {as : List α} (hf : ∀ a ∈ as, FailsOnly P (f a)) :
    FailsOnly P (as.forM f) := by
  induction as with
  | nil => exact failsOnly_ok ()
  | cons a as ih =>
    obtain ⟨hhead, htail⟩ := List.forall_mem_cons.mp hf
    exact hhead.bind fun _ _ => ih htail

theorem failsOnly_foldlM {f : β → α → Except ε β} {as : List α}
    (hf : ∀ a ∈ as, ∀ b, FailsOnly P (f b a)) (b : β) : FailsOnly P (as.foldlM f b) := by
  induction as generalizing b with
  | nil => exact failsOnly_ok b
  | cons a as ih =>
    obtain ⟨hhead, htail⟩ := List.forall_mem_cons.mp hf
    rw [List.foldlM_cons]
    exact (hhead b).bind fun c _ => ih htail c

end

/-- A sequence of steps fails as the first step that fails does. -/
theorem mapM_eq_error_iff {f : α → Except ε β} {as : List α} {e : ε} :
    as.mapM f = .error e ↔ ∃ before a after, as = before ++ a :: after ∧
      (∀ b ∈ before, ∃ v, f b = .ok v) ∧ f a = .error e := by
  induction as with
  | nil => simp [pure, Except.pure]
  | cons a as ih =>
    rw [List.mapM_cons]
    cases hstep : f a with
    | error e' =>
      constructor
      · intro he
        cases he
        exact ⟨[], a, as, rfl, nofun, hstep⟩
      · intro hsplit
        obtain ⟨before, a', after, heq, hbefore, hfails⟩ := hsplit
        cases before with
        | nil =>
          obtain ⟨rfl, -⟩ := List.cons.inj heq
          cases hstep.symm.trans hfails
          rfl
        | cons b before =>
          obtain ⟨rfl, -⟩ := List.cons.inj heq
          obtain ⟨v, hv⟩ := hbefore a List.mem_cons_self
          cases hstep.symm.trans hv
    | ok v =>
      rw [ok_bind, bind_pure_eq_error_iff, ih]
      constructor
      · intro hsplit
        obtain ⟨before, a', after, rfl, hbefore, hfails⟩ := hsplit
        exact ⟨a :: before, a', after, rfl, List.forall_mem_cons.mpr ⟨⟨v, hstep⟩, hbefore⟩, hfails⟩
      · intro hsplit
        obtain ⟨before, a', after, heq, hbefore, hfails⟩ := hsplit
        cases before with
        | nil =>
          obtain ⟨rfl, -⟩ := List.cons.inj heq
          cases hstep.symm.trans hfails
        | cons b before =>
          obtain ⟨rfl, rfl⟩ := List.cons.inj heq
          exact ⟨before, a', after, rfl, (List.forall_mem_cons.mp hbefore).2, hfails⟩

theorem forM_eq_error_iff {f : α → Except ε Unit} {as : List α} {e : ε} :
    as.forM f = .error e ↔ ∃ before a after, as = before ++ a :: after ∧
      (∀ b ∈ before, f b = .ok ()) ∧ f a = .error e := by
  have hmap : as.forM f = .error e ↔ as.mapM f = .error e := by
    induction as with
    | nil => simp [List.forM, pure, Except.pure]
    | cons a as ih =>
      rw [List.forM, List.mapM_cons]
      cases f a with
      | error e' => simp only [error_bind, Except.error.injEq]
      | ok v => rw [ok_bind, ok_bind, bind_pure_eq_error_iff, ih]
  rw [hmap, mapM_eq_error_iff]
  simp only [Unique.exists_iff, PUnit.default_eq_unit]

/-- A sequence of steps in an order fails as the least of those that fail does. -/
theorem mapM_eq_error_iff_first {f : α → Except ε β} {as : List α} {R : α → α → Prop}
    (hasymm : ∀ a b, R a b → ¬ R b a) (hsorted : as.Pairwise R) {e : ε} :
    as.mapM f = .error e ↔
      ∃ a ∈ as, f a = .error e ∧ ∀ b ∈ as, R b a → ∃ v, f b = .ok v := by
  rw [mapM_eq_error_iff]
  constructor
  · intro hsplit
    obtain ⟨before, a, after, rfl, hbefore, hfails⟩ := hsplit
    obtain ⟨-, hrest, -⟩ := List.pairwise_append.mp hsorted
    have hafter := (List.pairwise_cons.mp hrest).1
    refine ⟨a, List.mem_append_right before List.mem_cons_self, hfails, ?_⟩
    intro b hb hless
    rcases List.mem_append.mp hb with hb | hb
    · exact hbefore b hb
    · rcases List.mem_cons.mp hb with rfl | hb
      · exact absurd hless (hasymm b b hless)
      · exact absurd hless (hasymm a b (hafter b hb))
  · intro hfirst
    obtain ⟨a, ha, hfails, hless⟩ := hfirst
    obtain ⟨before, after, rfl⟩ := List.append_of_mem ha
    obtain ⟨-, -, hacross⟩ := List.pairwise_append.mp hsorted
    refine ⟨before, a, after, rfl, ?_, hfails⟩
    intro b hb
    exact hless b (List.mem_append_left _ hb) (hacross b hb a List.mem_cons_self)

/-- Sequences of steps that are taken one after the other fail as one sequence does. -/
theorem mapM_flatMap_eq_error_iff {γ δ : Type} {g : α → List β} {f : β → Except ε γ}
    {make : α → List γ → δ} {as : List α} {e : ε} :
    (as.mapM fun a => do return make a (← (g a).mapM f)) = .error e ↔
      (as.flatMap g).mapM f = .error e := by
  induction as with
  | nil => simp [pure, Except.pure]
  | cons a as ih =>
    rw [List.mapM_cons, List.flatMap_cons, List.mapM_append]
    cases (g a).mapM f with
    | error e' => simp only [error_bind, Except.error.injEq]
    | ok cs => simp only [ok_bind, pure_bind, bind_pure_eq_error_iff, ih]

/-- A sequence of steps that fails does so at one of them, and those before it succeed. -/
theorem exists_of_foldlM_eq_error {f : β → α → Except ε β} {as : List α} {b : β} {e : ε}
    (he : as.foldlM f b = .error e) :
    ∃ before a after c, as = before ++ a :: after ∧ before.foldlM f b = .ok c ∧
      f c a = .error e := by
  induction as generalizing b with
  | nil => cases he
  | cons a as ih =>
    rw [List.foldlM_cons] at he
    cases hstep : f b a with
    | error e' =>
      rw [hstep] at he
      cases he
      exact ⟨[], a, as, b, rfl, rfl, hstep⟩
    | ok c =>
      rw [hstep] at he
      obtain ⟨before, a', after, c', rfl, hbefore, hfails⟩ := ih he
      refine ⟨a :: before, a', after, c', rfl, ?_, hfails⟩
      rw [List.foldlM_cons, hstep]
      exact hbefore

theorem foldlM_eq_error_of_split {f : β → α → Except ε β} {before after : List α} {a : α} {b c : β}
    {e : ε} (hbefore : before.foldlM f b = .ok c) (ha : f c a = .error e) :
    (before ++ a :: after).foldlM f b = .error e := by
  rw [List.foldlM_append, hbefore, ok_bind, List.foldlM_cons, ha]
  rfl

theorem findSome?_congr {α β : Type} {as : List α} {f g : α → Option β}
    (hsame : ∀ a ∈ as, f a = g a) : as.findSome? f = as.findSome? g := by
  induction as with
  | nil => rfl
  | cons a as ih =>
    rw [List.findSome?_cons, List.findSome?_cons, hsame a List.mem_cons_self,
      ih fun b hb => hsame b (List.mem_cons_of_mem a hb)]

theorem anyM_eq_ok {f : α → Except ε Bool} {test : α → Bool} {as : List α}
    (hstep : ∀ a ∈ as, f a = .ok (test a)) : as.anyM f = .ok (as.any test) := by
  induction as with
  | nil => rfl
  | cons a as ih =>
    have hrest := ih fun b hb => hstep b (List.mem_cons_of_mem a hb)
    rw [List.anyM_cons, hstep a List.mem_cons_self, ok_bind, hrest, List.any_cons]
    cases test a <;> rfl

theorem findSomeM?_eq_ok {f : α → Except ε (Option β)} {value : α → Option β} {as : List α}
    (hstep : ∀ a ∈ as, f a = .ok (value a)) : as.findSomeM? f = .ok (as.findSome? value) := by
  induction as with
  | nil => rfl
  | cons a as ih =>
    have hrest := ih fun b hb => hstep b (List.mem_cons_of_mem a hb)
    rw [List.findSomeM?, hstep a List.mem_cons_self, ok_bind, List.findSome?_cons]
    cases value a with
    | some b => rfl
    | none => exact hrest

theorem exists_of_findSomeM?_eq_some {f : α → Except ε (Option β)} {as : List α} {b : β}
    (hfound : as.findSomeM? f = .ok (some b)) : ∃ a ∈ as, f a = .ok (some b) := by
  induction as with
  | nil => cases hfound
  | cons a as ih =>
    rw [List.findSomeM?, bind_eq_ok_iff] at hfound
    obtain ⟨found, ha, hrest⟩ := hfound
    cases found with
    | some found =>
      cases hrest
      exact ⟨a, List.mem_cons_self, ha⟩
    | none =>
      obtain ⟨a', ha', hfound⟩ := ih hrest
      exact ⟨a', List.mem_cons_of_mem a ha', hfound⟩

theorem find?_eq_some_of_unique {test : α → Bool} {as : List α} {a : α} (ha : a ∈ as)
    (htest : test a = true) (hunique : ∀ b ∈ as, test b = true → b = a) :
    as.find? test = some a := by
  cases hfind : as.find? test with
  | none => exact absurd htest (List.find?_eq_none.mp hfind a ha)
  | some b => rw [hunique b (List.mem_of_find?_eq_some hfind) (List.find?_some hfind)]

/-- A search finds what the first element gives that gives anything. -/
theorem findSome?_eq_some_iff_first {as : List α} {f : α → Option β} {b : β} :
    as.findSome? f = some b ↔ ∃ (i : Nat) (a : α), as[i]? = some a ∧ f a = some b ∧
      ∀ j < i, ∀ other, as[j]? = some other → f other = none := by
  induction as with
  | nil => simp
  | cons a as ih =>
    rw [List.findSome?_cons]
    cases hstep : f a with
    | some found =>
      constructor
      · intro hfound
        exact ⟨0, a, rfl, hstep.trans hfound, by omega⟩
      · intro hfirst
        obtain ⟨i, a', ha', hfound, hbefore⟩ := hfirst
        cases i with
        | zero =>
          cases ha'
          exact hstep.symm.trans hfound
        | succ i =>
          have hnone := hbefore 0 (by omega) a rfl
          cases hstep.symm.trans hnone
    | none =>
      rw [ih]
      constructor
      · intro hfirst
        obtain ⟨i, a', ha', hfound, hbefore⟩ := hfirst
        refine ⟨i + 1, a', ha', hfound, ?_⟩
        intro j hj other hother
        cases j with
        | zero =>
          cases hother
          exact hstep
        | succ j => exact hbefore j (by omega) other hother
      · intro hfirst
        obtain ⟨i, a', ha', hfound, hbefore⟩ := hfirst
        cases i with
        | zero =>
          cases ha'
          cases hstep.symm.trans hfound
        | succ i =>
          refine ⟨i, a', ha', hfound, ?_⟩
          intro j hj other hother
          exact hbefore (j + 1) (by omega) other hother

theorem lookup_cons_of_ne {key key' : String} (hne : key ≠ key') (a : α) (as : List (String × α)) :
    ((key', a) :: as).lookup key = as.lookup key := by
  rw [List.lookup_cons, beq_false_of_ne hne]

/-- A table made of a list is searched like the list. -/
theorem lookup_map_pair {κ : Type} [BEq κ] [LawfulBEq κ] (key : α → κ) (value : α → β)
    (as : List α) (k : κ) :
    (as.map fun a => (key a, value a)).lookup k = (as.find? fun a => key a == k).map value := by
  induction as with
  | nil => rfl
  | cons a as ih =>
    rw [List.map_cons, List.lookup_cons, List.find?_cons, ih, BEq.comm]
    cases key a == k <;> rfl

/-- A list with its positions is a table of the first ones. -/
theorem lookup_zipIdx {α : Type} [BEq α] [LawfulBEq α] (as : List α) (a : α) :
    as.zipIdx.lookup a = if a ∈ as then some (as.idxOf a) else none := by
  have hfrom : ∀ k, (as.zipIdx k).lookup a = if a ∈ as then some (as.idxOf a + k) else none := by
    induction as with
    | nil => simp
    | cons b as ih =>
      intro k
      rw [List.zipIdx_cons, List.lookup_cons]
      by_cases hab : a = b
      · simp [hab]
      · rw [beq_false_of_ne hab, ih]
        have hba : (b == a) = false := beq_false_of_ne (Ne.symm hab)
        simp only [List.mem_cons, hab, false_or, List.idxOf_cons, hba, cond_false]
        congr 2
        omega
  simpa using hfrom 0

/-- In a list without repetitions only the element at a position is replaced. -/
theorem set_idxOf_map {α β : Type} [BEq α] [LawfulBEq α] {as : List α} (has : as.Nodup) {a : α}
    (ha : a ∈ as) (f g : α → β) (hg : ∀ b ∈ as, b ≠ a → g b = f b) :
    (as.map f).set (as.idxOf a) (g a) = as.map g := by
  apply List.ext_getElem
  · simp
  · intro i hi _
    have hi' : i < as.length := by simpa using hi
    rw [List.getElem_set, List.getElem_map, List.getElem_map]
    split
    next hsame =>
      subst hsame
      rw [List.getElem_idxOf (List.idxOf_lt_length_of_mem ha)]
    next hother =>
      refine (hg _ (List.getElem_mem hi') fun hsame => hother ?_).symm
      rw [← hsame]
      exact has.idxOf_getElem i hi'

theorem nodup_eraseDups {α : Type} [BEq α] [LawfulBEq α] : ∀ as : List α, as.eraseDups.Nodup
  | [] => List.nodup_nil
  | a :: as => by
    rw [List.eraseDups_cons, List.nodup_cons, List.mem_eraseDups]
    exact ⟨by simp, nodup_eraseDups (as.filter fun b => !b == a)⟩
termination_by as => as.length
decreasing_by
  have hle := List.length_filter_le (fun b => !b == a) as
  simp only [List.length_cons]
  omega

theorem pairwise_zipIdx (as : List α) : as.zipIdx.Pairwise fun a b => a.2 < b.2 := by
  rw [← List.pairwise_map, List.zipIdx_map_snd]
  exact List.pairwise_lt_range'

/-- Going over a list with its positions does what going over the list does. -/
theorem flatMap_eq_flatMap_zipIdx (as : List α) (f : α → List β) :
    as.flatMap f = as.zipIdx.flatMap fun a => f a.1 := by
  conv_lhs => rw [← List.zipIdx_map_fst 0 as, List.flatMap_map]

/-- Only the element at a position counts. -/
theorem flatMap_zipIdx_of_single {f : α × Nat → List β} {i : Nat}
    (hf : ∀ a j, j ≠ i → f (a, j) = []) (as : List α) :
    as.zipIdx.flatMap f = as[i]?.toList.flatMap fun a => f (a, i) := by
  induction as using List.reverseRecOn with
  | nil => rfl
  | append_singleton as a ih =>
    rw [List.zipIdx_append, List.flatMap_append, ih, List.zipIdx_singleton, Nat.zero_add,
      List.flatMap_singleton]
    rcases Nat.lt_trichotomy i as.length with hi | rfl | hi
    · rw [hf a _ (Nat.ne_of_gt hi), List.append_nil, List.getElem?_append_left hi]
    · simp
    · rw [hf a _ (Nat.ne_of_lt hi), List.append_nil, List.getElem?_eq_none (Nat.le_of_lt hi),
        List.getElem?_eq_none (by simpa using Nat.succ_le_of_lt hi)]

/-- Pairs whose first parts are images can be drawn back to pairs with what they are images of. -/
theorem exists_map_fst_eq {α β γ : Type} {f : α → β} {as : List α} {bs : List (β × γ)}
    (hfst : bs.map (·.1) = as.map f) :
    ∃ cs : List (α × γ), cs.map (·.1) = as ∧ bs = cs.map fun c => (f c.1, c.2) := by
  induction as generalizing bs with
  | nil => exact ⟨[], rfl, List.map_eq_nil_iff.mp hfst⟩
  | cons a as ih =>
    obtain ⟨⟨b, c⟩, bs, rfl, rfl, hrest⟩ := List.map_eq_cons_iff.mp hfst
    obtain ⟨cs, rfl, rfl⟩ := ih hrest
    exact ⟨(a, c) :: cs, rfl, rfl⟩

end Schematic
