import Schematic.Argument.Coercion
import Schematic.Proofs.Decimal.Literal

namespace Schematic

/-- A way to read literals that gives the number nearest to what a literal denotes, and the even one
of two that are equally near, with the sign that is written. -/
def Decimal.CorrectlyRounded (read : List Char → Option Reading) : Prop :=
  ∀ negative cs d, Denotes 2 cs d → ∀ x : Double,
    read (signMark negative ++ cs) = some (.finite x) ↔ x.Rounds negative d.value

theorem Decimal.correctlyRounded_read? : CorrectlyRounded read? := by
  intro negative cs d hd x
  exact hd.read?_eq_finite_iff

namespace Argument

open Decimal (CorrectlyRounded Denotes signMark correctlyRounded_read?)

/-- A float is written in one of the forms of literals, and rounds back to itself. -/
theorem exists_denotes_floatText (x : Double) :
    ∃ cs d, (floatText x).toList = signMark x.negative ++ cs ∧ Denotes 2 cs d ∧
      x.Rounds x.negative d.value := by
  obtain ⟨d, hd, hvalue⟩ := Decimal.exists_denotes_magnitudeText floatLayout x
  refine ⟨_, d, Decimal.toList_write floatLayout x, hd, ?_⟩
  rw [hvalue]
  exact Decimal.rounds_shortest _ x

theorem read_floatText {read : List Char → Option Reading} (hread : CorrectlyRounded read)
    (x : Double) : read (floatText x).toList = some (.finite x) := by
  obtain ⟨cs, d, htext, hd, hrounds⟩ := exists_denotes_floatText x
  rw [htext]
  exact (hread x.negative cs d hd x).mpr hrounds

private theorem floatText_injective : Function.Injective floatText := by
  intro x y htext
  have hx := read_floatText correctlyRounded_read? x
  have hy := read_floatText correctlyRounded_read? y
  rw [htext, hy] at hx
  cases hx
  rfl

/-- Floats survive being written and read: reading is correctly rounded, any such reading gives back
the number that was written, and no two numbers are written alike. -/
theorem floatText_round_trips :
    CorrectlyRounded Decimal.read? ∧
      (∀ read, CorrectlyRounded read → ∀ x, read (floatText x).toList = some (.finite x)) ∧
      ∀ x y, floatText x = floatText y → x = y := by
  refine ⟨correctlyRounded_read?, ?_, ?_⟩
  · intro read hread x
    exact read_floatText hread x
  · intro x y htext
    exact floatText_injective htext

end Argument

end Schematic
