import Schematic.Proofs.Argument.RoundTrip
import Schematic.Proofs.Argument.Written
import Schematic.Proofs.Pipeline.Diagnostics

namespace Schematic

open Decimal (IsDigits Denotes signMark digits)

/-- A whole number: digits without a zero in front, unless it is zero. -/
def Argument.IsInteger (cs : List Char) : Prop :=
  ∃ negative ds, cs = signMark negative ++ ds ∧ IsDigits ds ∧ (ds.head? = some '0' → ds = ['0'])

/-- A float: digits on both sides of a point, or one digit, others after a point if there are any,
and an exponent with its sign and two or more digits. It stands for a finite number. -/
structure Argument.IsFloat (cs : List Char) : Prop where
  form : ∃ negative body d, cs = signMark negative ++ body ∧ Denotes 2 body d
  finite : ∃ x, Decimal.read? cs = some (.finite x)

/-- Two floats in brackets. -/
def Argument.IsRange (cs : List Char) : Prop :=
  ∃ low high, IsFloat low ∧ IsFloat high ∧
    cs = "(".toList ++ (low ++ (", ".toList ++ (high ++ ")".toList)))

namespace ArgumentKind

/-- The text is a literal of the kind. There are none of the kinds that are not supported. -/
def Spells : ArgumentKind → List Char → Prop
  | int => Argument.IsInteger
  | float => Argument.IsFloat
  | range => Argument.IsRange
  | string | array | unknown _ => fun _ => False

/-- The kind is supported and takes the value. -/
def Takes : ArgumentKind → Json → Prop
  | int, v => ∃ i, Argument.toInteger? v = some i
  | float, v => ∃ x, Argument.toDouble? v = some x
  | range, v => ∃ bounds, Argument.toRange? v = some bounds
  | string, _ | array, _ | unknown _, _ => False

end ArgumentKind

namespace Argument

private theorem isInteger_integer (i : Int) : IsInteger (Decimal.integer i).toList :=
  ⟨_, _, Decimal.toList_integer i, Decimal.isDigits_digits _, Decimal.digits_eq_zero_of_head?⟩

private theorem isFloat_floatText (x : Double) : IsFloat (floatText x).toList := by
  obtain ⟨cs, d, htext, hd, -⟩ := exists_denotes_floatText x
  exact ⟨⟨_, cs, d, htext, hd⟩, x, read_floatText Decimal.correctlyRounded_read? x⟩

theorem literal?_isSome_iff {kind : ArgumentKind} {v : Json} :
    (literal? kind v).isSome = true ↔ kind.Takes v := by
  cases kind <;> simp [literal?, ArgumentKind.Takes, Option.isSome_iff_exists]

private theorem spells_of_literal? {kind : ArgumentKind} {v : Json} {text : String}
    (htext : literal? kind v = some text) : kind.Spells text.toList := by
  cases kind with
  | int =>
    obtain ⟨i, -, rfl⟩ := Option.map_eq_some_iff.mp htext
    exact isInteger_integer i
  | float =>
    obtain ⟨x, -, rfl⟩ := Option.map_eq_some_iff.mp htext
    exact isFloat_floatText x
  | range =>
    obtain ⟨⟨low, high⟩, -, rfl⟩ := Option.map_eq_some_iff.mp htext
    refine ⟨_, _, isFloat_floatText low, isFloat_floatText high, ?_⟩
    simp only [String.toList_append, List.append_assoc]
  | string | array | unknown => cases htext

/-- The name is no identifier, or the kind is not supported or does not take the value. -/
def Refused (a : Argument) : Prop :=
  Text.isIdentifier a.name = false ∨ ∃ v, a.value = some v ∧ ¬ a.kind.Takes v

theorem write_eq_error_iff {node : String} {a : Argument} {v : Json} {f : Fault} :
    write node a v = .error f ↔
      Text.isIdentifier a.name = false ∧ f = .argumentName node a.name ∨
        Text.isIdentifier a.name = true ∧ ¬ a.kind.Takes v ∧
          f = .argumentValue node a.name a.kind v := by
  unfold write
  cases Text.isIdentifier a.name with
  | false => simp [eq_comm]
  | true =>
    rw [← literal?_isSome_iff]
    cases literal? a.kind v <;> simp [eq_comm]

private theorem path_of_write {node : String} {a : Argument} {v : Json} {f : Fault}
    (hf : write node a v = .error f) :
    ∃ diagnostic, f.problem = .invalid diagnostic ∧ diagnostic.path = [node, a.name] := by
  rcases write_eq_error_iff.mp hf with ⟨-, rfl⟩ | ⟨-, -, rfl⟩
  · exact ⟨_, rfl, rfl⟩
  · exact ⟨_, rfl, Fault.path_argumentDiagnostic node a.name a.kind v⟩

private theorem refused_iff_write {a : Argument} {v : Json} (hv : a.explicit? = some v)
    (node : String) :
    a.Refused ↔ ∃ f, write node a v = .error f := by
  have hvalue := value_of_explicit? hv
  simp only [write_eq_error_iff, Refused, hvalue]
  cases Text.isIdentifier a.name <;> simp

private theorem not_refused_iff_write {a : Argument} {v : Json} (hv : a.explicit? = some v)
    (node : String) : ¬ a.Refused ↔ ∃ w, write node a v = .ok w := by
  rw [refused_iff_write hv node]
  cases write node a v <;> simp

theorem Writable.not_refused {a : Argument} (ha : a.Writable) : ¬ a.Refused := by
  obtain ⟨hname, v, hvalue, hliteral⟩ := ha
  rintro (hrefused | ⟨w, hw, hrefused⟩)
  · cases hname.symm.trans hrefused
  · obtain rfl : v = w := Option.some.inj (hvalue.symm.trans hw)
    exact hrefused (literal?_isSome_iff.mp hliteral)

private theorem map_fst_explicits (arguments : List Argument) :
    (explicits arguments).map (·.1) = arguments.filter isExplicit := by
  induction arguments with
  | nil => rfl
  | cons a arguments ih =>
    rw [explicits, List.filterMap_cons, List.filter_cons, isExplicit]
    cases a.explicit? with
    | none => exact ih
    | some v => exact congrArg (a :: ·) ih

private theorem explicit?_of_mem_explicits {arguments : List Argument} {e : Argument × Json}
    (he : e ∈ explicits arguments) : e.1.explicit? = some e.2 := by
  obtain ⟨a, -, hvalue⟩ := List.mem_filterMap.mp he
  obtain ⟨v, hv, rfl⟩ := Option.map_eq_some_iff.mp hvalue
  exact hv

/-- Writing fails as the first argument does that is refused. -/
theorem exists_refused_of_writeAll {node : String} {arguments : List Argument} {f : Fault}
    (hf : writeAll node arguments = .error f) :
    ∃ before a after v, arguments = before ++ a :: after ∧
      (∀ b ∈ before, b.isExplicit = true → ¬ b.Refused) ∧ a.explicit? = some v ∧
      write node a v = .error f := by
  obtain ⟨before, e, after, hsplit, hbefore, hfails⟩ := mapM_eq_error_iff.mp hf
  obtain ⟨start, rest, harguments, hstart, hrest⟩ := List.filterMap_eq_append_iff.mp hsplit
  obtain ⟨skipped, a, after', rfl, hskipped, ha, -⟩ := List.filterMap_eq_cons_iff.mp hrest
  obtain ⟨v, hv, rfl⟩ := Option.map_eq_some_iff.mp ha
  refine ⟨start ++ skipped, a, after', v, by rw [harguments, List.append_assoc], ?_, hv, hfails⟩
  intro b hb hexplicit
  obtain ⟨w, hw⟩ := Option.isSome_iff_exists.mp hexplicit
  rcases List.mem_append.mp hb with hb | hb
  · rw [not_refused_iff_write hw node]
    have hmem : (b, w) ∈ before := by
      rw [← hstart]
      exact List.mem_filterMap.mpr ⟨b, hb, by rw [hw]; rfl⟩
    exact hbefore (b, w) hmem
  · have hnone := hskipped b hb
    rw [hw] at hnone
    cases hnone

/-- The arguments that are written out are written in order, each with its name, which is an
identifier, and as a literal of its kind. This fails exactly when one of them is refused, and then
the first such one is reported under the names of the node and the argument. -/
theorem writeAll_spells (node : String) (arguments : List Argument) :
    (∀ ws, writeAll node arguments = .ok ws →
      List.Forall₂ (fun a w => w.name = a.name ∧ Text.isIdentifier w.name = true ∧
          a.kind.Spells w.value.toList ∧ ∃ v, a.value = some v ∧ literal? a.kind v = some w.value)
        (arguments.filter isExplicit) ws) ∧
      ((∃ f, writeAll node arguments = .error f) ↔
        ∃ a ∈ arguments, a.isExplicit = true ∧ a.Refused) ∧
      ∀ f, writeAll node arguments = .error f →
        ∃ before a after, arguments = before ++ a :: after ∧
          (∀ b ∈ before, b.isExplicit = true → ¬ b.Refused) ∧ a.isExplicit = true ∧ a.Refused ∧
          ∃ diagnostic, f.problem = .invalid diagnostic ∧ diagnostic.path = [node, a.name] := by
  refine ⟨?_, ⟨?_, ?_⟩, ?_⟩
  · intro ws hws
    have hall := mapM_eq_ok_iff_forall₂.mp hws
    rw [← map_fst_explicits, List.forall₂_map_left_iff]
    have hmem : ∀ e ∈ explicits arguments, e.1.explicit? = some e.2 :=
      fun _ => explicit?_of_mem_explicits
    refine ((List.forall₂_and_left _ _).mpr ⟨hmem, hall⟩).imp ?_
    rintro ⟨a, v⟩ w ⟨hv, hw⟩
    obtain ⟨⟨hname, hsome⟩, rfl⟩ := write_eq_ok_iff.mp hw
    obtain ⟨text, htext⟩ := Option.isSome_iff_exists.mp hsome
    rw [htext]
    exact ⟨rfl, hname, spells_of_literal? htext, v, value_of_explicit? hv, htext⟩
  · rintro ⟨f, hf⟩
    obtain ⟨before, a, after, v, rfl, -, hv, hfails⟩ := exists_refused_of_writeAll hf
    exact ⟨a, List.mem_append_right before List.mem_cons_self, Option.isSome_of_eq_some hv,
      (refused_iff_write hv node).mpr ⟨f, hfails⟩⟩
  · rintro ⟨a, ha, hexplicit, hrefused⟩
    cases hws : writeAll node arguments with
    | error f => exact ⟨f, rfl⟩
    | ok ws =>
      have hwritable := (writeAll_eq_ok_iff.mp hws).1 a ha hexplicit
      exact absurd hrefused hwritable.not_refused
  · intro f hf
    obtain ⟨before, a, after, v, hsplit, hbefore, hv, hfails⟩ := exists_refused_of_writeAll hf
    exact ⟨before, a, after, hsplit, hbefore, Option.isSome_of_eq_some hv,
      (refused_iff_write hv node).mpr ⟨f, hfails⟩, path_of_write hfails⟩

end Argument

end Schematic
