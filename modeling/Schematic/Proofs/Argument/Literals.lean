import Schematic.Argument.Rendering
import Schematic.Proofs.Text.Separable

namespace Schematic

namespace Argument

/-- The characters of numbers as they are written. -/
def isNumberMark (c : Char) : Bool :=
  Decimal.isDigit c || c == '-' || c == '+' || c == '.' || c == 'e'

/-- Integers and floats are written with such characters alone. -/
structure IsNumber (cs : List Char) : Prop where
  nonempty : cs ≠ []
  marks : ∀ c ∈ cs, isNumberMark c = true

/-- A literal is a number, or a range: two numbers in brackets. -/
inductive IsLiteral : List Char → Prop where
  | number {cs : List Char} (hcs : IsNumber cs) : IsLiteral cs
  | range {low high : List Char} (hlow : IsNumber low) (hhigh : IsNumber high) :
    IsLiteral ("(".toList ++ (low ++ (", ".toList ++ (high ++ ")".toList))))

private theorem isNumber_digits (n : Nat) : IsNumber (Decimal.digits n) := by
  refine ⟨Nat.toDigits_ne_nil, fun c hc => ?_⟩
  simp [isNumberMark, Decimal.isDigit_of_mem_digits hc]

private theorem isNumberMark_of_mem_replicate {k : Nat} {c : Char} (hc : c ∈ List.replicate k '0') :
    isNumberMark c = true := by
  rw [List.eq_of_mem_replicate hc]
  rfl

private theorem isNumber_integer (i : Int) : IsNumber (Decimal.integer i).toList := by
  have hnatural := isNumber_digits i.natAbs
  unfold Decimal.integer
  split
  · simp only [String.toList_append, Decimal.natural, String.toList_ofList]
    have hsign := List.all_eq_true.mp (show "-".toList.all isNumberMark = true by decide)
    exact ⟨by simp, List.forall_mem_append.mpr ⟨hsign, hnatural.marks⟩⟩
  · rwa [Decimal.natural, String.toList_ofList]

private theorem isNumber_positional {ds : List Char} (hds : IsNumber ds) (lead : Int) :
    IsNumber (Decimal.positional ds lead) := by
  unfold Decimal.positional
  split
  · refine ⟨by simp, ?_⟩
    simp only [List.forall_mem_cons, List.forall_mem_append]
    exact ⟨rfl, rfl, fun c => isNumberMark_of_mem_replicate, hds.marks⟩
  · dsimp only
    split
    · refine ⟨by simp, ?_⟩
      simp only [List.forall_mem_append]
      exact ⟨⟨hds.marks, fun c => isNumberMark_of_mem_replicate⟩,
        List.all_eq_true.mp (by decide)⟩
    · refine ⟨by simp, ?_⟩
      simp only [List.forall_mem_append, List.forall_mem_cons]
      exact ⟨fun c hc => hds.marks c (List.mem_of_mem_take hc), rfl,
        fun c hc => hds.marks c (List.mem_of_mem_drop hc)⟩

private theorem isNumber_scientific {ds : List Char} (hds : IsNumber ds) (width : Nat)
    (lead : Int) :
    IsNumber (Decimal.scientific width ds lead) := by
  have hdrop : ∀ c ∈ ds.drop 1, isNumberMark c = true :=
    fun c hc => hds.marks c (List.mem_of_mem_drop hc)
  refine ⟨by simp [Decimal.scientific], ?_⟩
  simp only [Decimal.scientific, List.forall_mem_append]
  refine ⟨⟨⟨⟨fun c hc => hds.marks c (List.mem_of_mem_take hc), ?_⟩, ?_⟩,
    fun c => isNumberMark_of_mem_replicate⟩, (isNumber_digits _).marks⟩
  · split
    · exact List.forall_mem_nil _
    · exact List.forall_mem_cons.mpr ⟨rfl, hdrop⟩
  · split <;> exact List.all_eq_true.mp (by decide)

private theorem isNumber_floatText (x : Double) : IsNumber (floatText x).toList := by
  have hdigits := isNumber_digits (Decimal.shortest floatLayout.tie x).coefficient
  have hmagnitude : IsNumber (floatLayout.magnitudeText x) := by
    unfold Decimal.Layout.magnitudeText
    dsimp only
    split
    · exact isNumber_positional hdigits _
    · exact isNumber_scientific hdigits _ _
  rw [floatText, Decimal.Layout.write, String.toList_ofList]
  refine ⟨by simp [hmagnitude.nonempty], List.forall_mem_append.mpr ⟨?_, hmagnitude.marks⟩⟩
  split <;> exact List.all_eq_true.mp (by decide)

/-- Whatever is written for a value is a literal. -/
theorem isLiteral_of_literal? {kind : ArgumentKind} {v : Json} {text : String}
    (htext : literal? kind v = some text) : IsLiteral text.toList := by
  unfold literal? at htext
  split at htext
  · obtain ⟨i, -, rfl⟩ := Option.map_eq_some_iff.mp htext
    exact .number (isNumber_integer i)
  · obtain ⟨x, -, rfl⟩ := Option.map_eq_some_iff.mp htext
    exact .number (isNumber_floatText x)
  · obtain ⟨⟨low, high⟩, -, rfl⟩ := Option.map_eq_some_iff.mp htext
    simp only [String.toList_append, List.append_assoc]
    exact .range (isNumber_floatText low) (isNumber_floatText high)
  · cases htext

open Text (Stops Separable stops_append append_inj_of_stops)

/-- A number does not start like a range. -/
theorem IsNumber.append_ne_range {cs r s : List Char} (hcs : IsNumber cs) :
    cs ++ r ≠ "(".toList ++ s := by
  intro heq
  cases cs with
  | nil => exact hcs.nonempty rfl
  | cons c cs =>
    have hc := hcs.marks c List.mem_cons_self
    obtain ⟨rfl, -⟩ := List.cons.inj heq
    exact absurd hc (by decide)

theorem separable_literal : Separable IsLiteral id (Stops isNumberMark) := by
  have hcomma : ∀ rest, Stops isNumberMark (", ".toList ++ rest) := stops_append rfl rfl
  have hclose : ∀ rest, Stops isNumberMark (")".toList ++ rest) := stops_append rfl rfl
  intro x y r s hx hy hr hs heq
  rw [id, id] at heq
  cases hx with
  | number hx =>
    cases hy with
    | number hy => exact append_inj_of_stops hx.marks hy.marks hr hs heq
    | range =>
      rw [List.append_assoc] at heq
      exact absurd heq hx.append_ne_range
  | range hlow hhigh =>
    cases hy with
    | number hy =>
      rw [List.append_assoc] at heq
      exact absurd heq.symm hy.append_ne_range
    | range hlow' hhigh' =>
      simp only [List.append_assoc] at heq
      obtain ⟨rfl, hmore⟩ := append_inj_of_stops hlow.marks hlow'.marks (hcomma _) (hcomma _)
        (List.append_cancel_left heq)
      obtain ⟨rfl, hrest⟩ := append_inj_of_stops hhigh.marks hhigh'.marks (hclose _) (hclose _)
        (List.append_cancel_left hmore)
      exact ⟨rfl, List.append_cancel_left hrest⟩

end Argument

end Schematic
