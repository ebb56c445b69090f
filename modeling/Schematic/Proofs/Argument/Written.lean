import Schematic.Argument.Rendering
import Schematic.Proofs.Sequence

namespace Schematic.Argument

/-- An argument has a proper name and a value that its kind takes. -/
def Writable (a : Argument) : Prop :=
  Text.isIdentifier a.name = true ∧ ∃ v, a.value = some v ∧ (literal? a.kind v).isSome = true

/-- The arguments that are written out, as they are written. -/
def written (arguments : List Argument) : List Written :=
  (explicits arguments).map fun (a, v) => ⟨a.name, (literal? a.kind v).getD ""⟩

theorem value_of_explicit? {a : Argument} {v : Json} (hv : a.explicit? = some v) :
    a.value = some v := by
  unfold explicit? at hv
  cases hvalue : a.value with
  | none => simp [hvalue, Json.present] at hv
  | some w => cases w <;> simp_all [Json.present]

/-- A null counts as missing, both as a value and as a default, so it need not be told apart. -/
theorem explicit?_of_value {a : Argument} {v : Json} (hvalue : a.value = some v) :
    a.explicit? =
      if v.isTruthy && !(a.default.any (·.sameValue v)) then some v else none := by
  rw [explicit?, hvalue]
  cases v with
  | null => rfl
  | bool | number | string | array | object =>
    cases a.default with
    | none => rfl
    | some d => cases d <;> rfl

theorem isExplicit_eq_false_iff {a : Argument} :
    a.isExplicit = false ↔
      ∀ v ∈ a.value, v.isTruthy = false ∨ ∃ d ∈ a.default, d.sameValue v = true := by
  cases hvalue : a.value with
  | none => simp [isExplicit, explicit?, hvalue, Json.present]
  | some v =>
    rw [isExplicit, explicit?_of_value hvalue]
    simp only [Option.mem_some_iff, forall_eq']
    cases v.isTruthy <;> cases a.default <;> simp

theorem explicit?_eq_some {a : Argument} {v d : Json} (hvalue : a.value = some v)
    (hset : v.isTruthy = true) (hdefault : a.default = some d) (hd : d.sameValue v = false) :
    a.explicit? = some v := by
  rw [explicit?_of_value hvalue, hset, hdefault, Option.any_some, hd]
  rfl

theorem write_eq_ok_iff {node : String} {a : Argument} {v : Json} {w : Written} :
    write node a v = .ok w ↔
      (Text.isIdentifier a.name = true ∧ (literal? a.kind v).isSome = true) ∧
        w = ⟨a.name, (literal? a.kind v).getD ""⟩ := by
  unfold write
  cases Text.isIdentifier a.name with
  | false => simp
  | true => cases literal? a.kind v <;> simp [eq_comm]

theorem writeAll_eq_ok_iff {node : String} {arguments : List Argument} {ws : List Written} :
    writeAll node arguments = .ok ws ↔
      (∀ a ∈ arguments, a.isExplicit = true → a.Writable) ∧ ws = written arguments := by
  have hmapM := mapM_eq_ok_iff fun e (_ : e ∈ explicits arguments) w =>
    @write_eq_ok_iff node e.1 e.2 w
  refine (hmapM ws).trans (and_congr_left fun _ => ?_)
  simp only [explicits, List.mem_filterMap, Option.map_eq_some_iff, isExplicit,
    Option.isSome_iff_exists]
  constructor
  · rintro hall a ha ⟨v, hv⟩
    obtain ⟨hname, hliteral⟩ := hall (a, v) ⟨a, ha, v, hv, rfl⟩
    exact ⟨hname, v, value_of_explicit? hv, by simpa [Option.isSome_iff_exists] using hliteral⟩
  · rintro hall _ ⟨a, ha, v, hv, rfl⟩
    obtain ⟨hname, w, hvalue, hliteral⟩ := hall a ha ⟨v, hv⟩
    rw [value_of_explicit? hv, Option.some.injEq] at hvalue
    exact ⟨hname, by simpa [hvalue, Option.isSome_iff_exists] using hliteral⟩

theorem mem_written {arguments : List Argument} {a : Argument} {v : Json} {s : String}
    (ha : a ∈ arguments) (hv : a.explicit? = some v) (hs : literal? a.kind v = some s) :
    ⟨a.name, s⟩ ∈ written arguments := by
  have hmem : (a, v) ∈ explicits arguments := List.mem_filterMap.mpr ⟨a, ha, by rw [hv]; rfl⟩
  have hvalue : (literal? a.kind v).getD "" = s := by rw [hs, Option.getD_some]
  exact List.mem_map.mpr ⟨(a, v), hmem, congrArg (Written.mk a.name) hvalue⟩

end Schematic.Argument
