import Mathlib.Data.List.TakeWhile
import Schematic.Decimal.Reader
import Schematic.Text.Characters

namespace Schematic.Text

/-- The text is at its end or goes on with a character that is not of the kind. -/
def Stops (kind : Char → Bool) (rest : List Char) : Prop :=
  ∀ c ∈ rest.head?, kind c = false

/-- A longer text that starts with the text of a good value, and stops properly after it, determines
the value and the rest. -/
def Separable {α : Type} (good : α → Prop) (text : α → List Char) (stop : List Char → Prop) :
    Prop :=
  ∀ a b r s, good a → good b → stop r → stop s → text a ++ r = text b ++ s → a = b ∧ r = s

theorem stops_of_head? {kind : Char → Bool} {rest : List Char} {c : Char}
    (hrest : rest.head? = some c) (hc : kind c = false) : Stops kind rest := by
  intro d hd
  rw [hrest, Option.mem_some_iff] at hd
  rw [← hd, hc]

theorem stops_append {kind : Char → Bool} {start : List Char} {c : Char}
    (hstart : start.head? = some c) (hc : kind c = false) (rest : List Char) :
    Stops kind (start ++ rest) :=
  stops_of_head? (by rw [List.head?_append, hstart, Option.some_or]) hc

private theorem takeWhile_of_stops {kind : Char → Bool} {rest : List Char}
    (hrest : Stops kind rest) :
    rest.takeWhile kind = [] := by
  cases rest with
  | nil => rfl
  | cons c rest => exact List.takeWhile_cons_of_neg (by simp [hrest c rfl])

theorem takeWhile_append_stops {kind : Char → Bool} {cs rest : List Char}
    (hcs : ∀ c ∈ cs, kind c = true) (hrest : Stops kind rest) :
    (cs ++ rest).takeWhile kind = cs := by
  rw [List.takeWhile_append_of_pos hcs, takeWhile_of_stops hrest, List.append_nil]

theorem dropWhile_append_stops {kind : Char → Bool} {cs rest : List Char}
    (hcs : ∀ c ∈ cs, kind c = true) (hrest : Stops kind rest) :
    (cs ++ rest).dropWhile kind = rest := by
  have hsplit := List.takeWhile_append_dropWhile (p := kind) (l := cs ++ rest)
  rw [takeWhile_append_stops hcs hrest] at hsplit
  exact List.append_cancel_left hsplit

/-- Characters of one kind end where the first of another kind stands. -/
theorem append_inj_of_stops {kind : Char → Bool} {x y r s : List Char}
    (hx : ∀ c ∈ x, kind c = true) (hy : ∀ c ∈ y, kind c = true) (hr : Stops kind r)
    (hs : Stops kind s) (heq : x ++ r = y ++ s) : x = y ∧ r = s := by
  have hxy : x = y := by
    calc x = (x ++ r).takeWhile kind := (takeWhile_append_stops hx hr).symm
      _ = (y ++ s).takeWhile kind := by rw [heq]
      _ = y := takeWhile_append_stops hy hs
  subst hxy
  exact ⟨rfl, List.append_cancel_left heq⟩

theorem continuesIdentifier_of_isIdentifier {name : String} (hname : isIdentifier name = true) :
    ∀ c ∈ name.toList, continuesIdentifier c = true := by
  unfold isIdentifier at hname
  cases hchars : name.toList with
  | nil => simp
  | cons c rest =>
    rw [hchars, Bool.and_eq_true, List.all_eq_true] at hname
    obtain ⟨hfirst, hrest⟩ := hname
    refine List.forall_mem_cons.mpr ⟨?_, hrest⟩
    rw [startsIdentifier] at hfirst
    rw [continuesIdentifier, hfirst, Bool.true_or]

private theorem ne_nil_of_isIdentifier {name : String} (hname : isIdentifier name = true) :
    name.toList ≠ [] := by
  intro hnil
  simp [isIdentifier, hnil] at hname

/-- The characters that stand between names in the emitted text. -/
def punctuation : List Char := [' ', '(', ')', '.', '\'', '=', ',', ':']

private theorem continuesIdentifier_punctuation {c : Char} (hc : c ∈ punctuation) :
    continuesIdentifier c = false := by
  have hall : punctuation.all (!continuesIdentifier ·) = true := by decide +kernel
  have hnot := List.all_eq_true.mp hall c hc
  rwa [Bool.not_eq_true'] at hnot

theorem stops_identifier {start : List Char} (hstart : start.head?.any punctuation.contains = true)
    (rest : List Char) : Stops continuesIdentifier (start ++ rest) := by
  obtain ⟨c, hc, hmem⟩ := (Option.any_eq_true ..).mp hstart
  exact stops_append hc (continuesIdentifier_punctuation (List.contains_iff_mem.mp hmem)) rest

theorem separable_identifier :
    Separable (isIdentifier · = true) String.toList (Stops continuesIdentifier) := by
  intro a b r s ha hb hr hs heq
  obtain ⟨hname, hrest⟩ := append_inj_of_stops (continuesIdentifier_of_isIdentifier ha)
    (continuesIdentifier_of_isIdentifier hb) hr hs heq
  exact ⟨String.toList_inj.mp hname, hrest⟩

/-- A name before a text that starts with punctuation. -/
theorem identifier_append_inj {a b : String} (ha : isIdentifier a = true)
    (hb : isIdentifier b = true) {start r s : List Char}
    (hstart : start.head?.any punctuation.contains = true)
    (heq : a.toList ++ (start ++ r) = b.toList ++ (start ++ s)) : a = b ∧ r = s := by
  obtain ⟨hname, hrest⟩ := separable_identifier a b _ _ ha hb (stops_identifier hstart r)
    (stops_identifier hstart s) heq
  exact ⟨hname, List.append_cancel_left hrest⟩

theorem identifier_append_ne {name : String} (hname : isIdentifier name = true) {r s : List Char}
    (hs : s.head?.any punctuation.contains = true) : name.toList ++ r ≠ s := by
  rintro rfl
  cases hchars : name.toList with
  | nil => exact ne_nil_of_isIdentifier hname hchars
  | cons c cs =>
    rw [hchars] at hs
    have hc := continuesIdentifier_of_isIdentifier hname c (by simp [hchars])
    rw [continuesIdentifier_punctuation (List.contains_iff_mem.mp hs)] at hc
    cases hc

end Schematic.Text

namespace Schematic.Decimal

theorem isDigit_of_mem_digits {n : Nat} {c : Char} (hc : c ∈ digits n) : isDigit c = true := by
  have hdigit := Nat.isDigit_of_mem_toDigits (by decide) (by decide) hc
  simpa [Char.isDigit, isDigit, Char.le_def] using hdigit

private theorem digits_inj {m n : Nat} (hdigits : digits m = digits n) : m = n := by
  have hvalue := congrArg (Nat.ofDigitChars 10 · 0) hdigits
  simpa [digits, Nat.ofDigitChars_toDigits] using hvalue

open Text (Stops Separable append_inj_of_stops)

theorem separable_natural :
    Separable (fun _ => True) (fun n => (natural n).toList) (Stops isDigit) := by
  intro m n r s _ _ hr hs heq
  simp only [natural, String.toList_ofList] at heq
  obtain ⟨hdigits, hrest⟩ := append_inj_of_stops (fun c hc => isDigit_of_mem_digits hc)
    (fun c hc => isDigit_of_mem_digits hc) hr hs heq
  exact ⟨digits_inj hdigits, hrest⟩

end Schematic.Decimal

namespace Schematic.Text

section

variable {α : Type} {good : α → Prop} {text : α → List Char} {between stop : List Char → Prop}

/-- What follows a piece is another piece or the end. -/
theorem between_flatMap {as : List α} {r : List Char} (hend : stop r → between r)
    (hnext : ∀ a r, good a → between (text a ++ r)) (has : ∀ a ∈ as, good a) (hr : stop r) :
    between (as.flatMap text ++ r) := by
  cases as with
  | nil => exact hend hr
  | cons a as =>
    rw [List.flatMap_cons, List.append_assoc]
    exact hnext a _ (has a List.mem_cons_self)

/-- Pieces one after the other are separable if each is, where another piece or the end may follow,
and no piece looks like the end. -/
theorem Separable.flatMap (hitem : Separable good text between) (hend : ∀ r, stop r → between r)
    (hnext : ∀ a r, good a → between (text a ++ r))
    (hapart : ∀ a r s, good a → stop s → text a ++ r ≠ s) :
    Separable (fun as : List α => ∀ a ∈ as, good a) (List.flatMap text) stop := by
  intro as
  induction as with
  | nil =>
    intro bs r s _ hbs hr hs heq
    cases bs with
    | nil => exact ⟨rfl, heq⟩
    | cons b bs =>
      rw [List.flatMap_cons, List.append_assoc] at heq
      exact absurd heq.symm (hapart b _ r (hbs b List.mem_cons_self) hr)
  | cons a as ih =>
    intro bs r s has hbs hr hs heq
    obtain ⟨ha, has⟩ := List.forall_mem_cons.mp has
    rw [List.flatMap_cons, List.append_assoc] at heq
    cases bs with
    | nil => exact absurd heq (hapart a _ s ha hs)
    | cons b bs =>
      obtain ⟨hb, hmore⟩ := List.forall_mem_cons.mp hbs
      rw [List.flatMap_cons, List.append_assoc] at heq
      obtain ⟨rfl, htail⟩ := hitem a b _ _ ha hb (between_flatMap (hend r) hnext has hr)
        (between_flatMap (hend s) hnext hmore hs) heq
      obtain ⟨rfl, hrest⟩ := ih bs r s has hmore hr hs htail
      exact ⟨rfl, hrest⟩

theorem intercalate_map_cons (sep : List Char) (text : α → List Char) (a : α) (as : List α) :
    sep.intercalate ((a :: as).map text) = text a ++ as.flatMap fun b => sep ++ text b := by
  induction as generalizing a with
  | nil => simp
  | cons b as ih =>
    rw [List.map_cons, List.map_cons, List.intercalate_cons_cons, ← List.map_cons, ih,
      List.flatMap_cons, List.append_assoc, List.append_assoc]

/-- Pieces with a separator between them are separable if each piece is before a separator or the
end, and neither a piece nor a separator looks like the end. -/
theorem Separable.intercalate {sep : List Char} (hitem : Separable good text between)
    (hend : ∀ r, stop r → between r) (hsep : ∀ r, between (sep ++ r))
    (hfirst : ∀ a r s, good a → stop s → text a ++ r ≠ s) (hapart : ∀ r s, stop s → sep ++ r ≠ s) :
    Separable (fun as : List α => ∀ a ∈ as, good a) (fun as => sep.intercalate (as.map text))
      stop := by
  have hmore : Separable good (fun a => sep ++ text a) between := by
    intro a b r s ha hb hr hs heq
    rw [List.append_assoc, List.append_assoc] at heq
    exact hitem a b r s ha hb hr hs (List.append_cancel_left heq)
  have hnext : ∀ a r, good a → between ((sep ++ text a) ++ r) := by
    intro a r _
    rw [List.append_assoc]
    exact hsep _
  have htails := hmore.flatMap hend hnext fun a r s _ hs => by
    rw [List.append_assoc]
    exact hapart _ s hs
  -- The first piece has no separator before it; what follows is a list of separators and pieces.
  intro as bs r s has hbs hr hs heq
  dsimp only at heq
  cases as with
  | nil =>
    cases bs with
    | nil => exact ⟨rfl, heq⟩
    | cons b bs =>
      rw [intercalate_map_cons, List.append_assoc] at heq
      exact absurd heq.symm (hfirst b _ r (hbs b List.mem_cons_self) hr)
  | cons a as =>
    obtain ⟨ha, has⟩ := List.forall_mem_cons.mp has
    rw [intercalate_map_cons, List.append_assoc] at heq
    cases bs with
    | nil => exact absurd heq (hfirst a _ s ha hs)
    | cons b bs =>
      obtain ⟨hb, hothers⟩ := List.forall_mem_cons.mp hbs
      rw [intercalate_map_cons, List.append_assoc] at heq
      obtain ⟨rfl, htail⟩ := hitem a b _ _ ha hb (between_flatMap (hend r) hnext has hr)
        (between_flatMap (hend s) hnext hothers hs) heq
      obtain ⟨rfl, hrest⟩ := htails as bs r s has hothers hr hs htail
      exact ⟨rfl, hrest⟩

end

end Schematic.Text
