import Schematic.Proofs.Argument.Equality
import Schematic.Proofs.Double.Signed
import Schematic.Proofs.Lowering.Design

namespace Schematic

namespace Json

open Argument (toInteger? toDouble?)

/-- A value that holds no others. -/
def IsScalar : Json → Prop
  | array _ | object _ => False
  | _ => True

/-- A zero that is given as a number or as false. -/
def IsZero (j : Json) : Prop :=
  ∃ n, j.numeric? = some n ∧ n.isZero = true

/-- One of two numbers is an integer, and the other one is the binary64 number that it is rounded
to, which is not equal to it. -/
def Number.Inexact (m n : Number) : Prop :=
  ∃ i x, Double.ofInt? i.val = some x ∧ x.scaled ≠ i.val * Double.unitsPerOne ∧
    (m = integer i ∧ n = double x ∨ m = double x ∧ n = integer i)

def Inexact (a b : Json) : Prop :=
  ∃ m n, a.numeric? = some m ∧ b.numeric? = some n ∧ m.Inexact n

private theorem isScalar_of_toInteger? {a : Json} {i : Int} (hi : toInteger? a = some i) :
    a.IsScalar := by
  cases a with
  | array | object => cases hi
  | _ => trivial

private theorem isScalar_of_toDouble? {a : Json} {x : Double} (hx : toDouble? a = some x) :
    a.IsScalar := by
  cases a with
  | array | object => cases hx
  | _ => trivial

/-- Equal values that hold no others are the same, or both of them count as numbers. -/
theorem IsScalar.eq_or_numeric {a b : Json} (ha : a.IsScalar) (hsame : a.sameValue b = true) :
    a = b ∨ ∃ m n, a.numeric? = some m ∧ b.numeric? = some n ∧ m.Same n := by
  cases a with
  | null =>
    cases b with
    | null => exact .inl rfl
    | _ => cases hsame
  | string s =>
    cases b with
    | string t => exact .inl (congrArg string (beq_iff_eq.mp hsame))
    | _ => cases hsame
  | bool | number =>
    cases b with
    | bool | number =>
      refine .inr ⟨_, _, rfl, rfl, Number.sameValue_iff.mp ?_⟩
      rw [← hsame]
      exact Eq.symm (sameValue_eq_of_numeric rfl rfl)
    | _ => cases hsame
  | array | object => cases ha

private theorem toDouble?_of_numeric {a : Json} {m : Number} (ha : a.numeric? = some m) :
    toDouble? a = m.toDouble? := by
  cases a with
  | bool b =>
    cases ha
    cases b <;> decide +kernel
  | number n =>
    cases ha
    rfl
  | _ => cases ha

private theorem toInteger?_of_numeric {a : Json} {m : Number} {i : Int} (ha : a.numeric? = some m)
    (hi : toInteger? a = some i) : toInteger? (.number m) = some i := by
  cases a with
  | bool b =>
    cases ha
    cases b with
    | true => exact hi
    | false => cases hi
  | number n =>
    cases ha
    exact hi
  | _ => cases ha

theorem IsZero.not_isTruthy {a : Json} (ha : a.IsZero) : a.isTruthy = false := by
  obtain ⟨n, hn, hzero⟩ := ha
  cases a with
  | bool b =>
    cases hn
    cases b with
    | true => cases hzero
    | false => rfl
  | number n =>
    cases hn
    rw [isTruthy, hzero, Bool.not_true]
  | _ => cases hn

theorem Number.Same.scaled_eq {m n : Number} {x y : Double} (hsame : m.Same n)
    (hx : m.toDouble? = some x) (hy : n.toDouble? = some y) : x.scaled = y.scaled := by
  cases m with
  | integer i =>
    cases n with
    | integer j =>
      have hval : i.val = j.val := hsame
      rw [toDouble?, hval] at hx
      rw [Option.some.inj (hx.symm.trans hy)]
    | double z =>
      obtain ⟨x', hx', hscaled⟩ := hsame
      cases hx.symm.trans hx'
      cases hy
      exact hscaled
  | double z =>
    cases hx
    cases n with
    | integer j =>
      obtain ⟨y', hy', hscaled⟩ := hsame
      cases hy.symm.trans hy'
      exact hscaled.symm
    | double z' =>
      cases hy
      exact hsame

theorem Number.isZero_of_toDouble? {m : Number} {x : Double} (hm : m.toDouble? = some x)
    (hx : x.isZero = true) : m.isZero = true := by
  cases m with
  | integer i => exact beq_iff_eq.mpr (Double.eq_zero_of_ofInt? hm hx)
  | double y =>
    cases hm
    exact hx

/-- An integer is compared with the number that it is rounded to. -/
theorem Number.Same.truncate_eq {i : Integer} {x : Double} (hsame : (integer i).Same (double x))
    (hexact : Double.ofInt? i.val = some x → x.scaled = i.val * Double.unitsPerOne) :
    x.truncate = i.val := by
  obtain ⟨y, hrounded, hscaled⟩ := hsame
  apply Double.truncate_of_scaled_eq
  rcases Double.eq_or_isZero_of_scaled_eq hscaled with rfl | ⟨hy, hx⟩
  · exact hexact hrounded
  · rw [Double.isZero_iff.mp hx, Double.eq_zero_of_ofInt? hrounded hy, zero_mul]

theorem Number.truncate_of_toInteger? {x : Double} {i : Int}
    (hi : toInteger? (.number (.double x)) = some i) : x.truncate = i := by
  rw [toInteger?, Option.ite_none_right_eq_some] at hi
  exact Option.some.inj hi.2

theorem Number.Same.toInteger?_eq {m n : Number} {i j : Int} (hsame : m.Same n)
    (hexact : ¬ m.Inexact n) (hi : toInteger? (.number m) = some i)
    (hj : toInteger? (.number n) = some j) : i = j := by
  cases m with
  | integer k =>
    obtain rfl : k.val = i := Option.some.inj hi
    cases n with
    | integer l =>
      obtain rfl : l.val = j := Option.some.inj hj
      exact hsame
    | double y =>
      rw [← truncate_of_toInteger? hj]
      refine (hsame.truncate_eq fun hrounded => ?_).symm
      by_contra hne
      exact hexact ⟨k, y, hrounded, hne, .inl ⟨rfl, rfl⟩⟩
  | double x =>
    obtain rfl := truncate_of_toInteger? hi
    cases n with
    | integer l =>
      obtain rfl : l.val = j := Option.some.inj hj
      refine hsame.symm.truncate_eq fun hrounded => ?_
      by_contra hne
      exact hexact ⟨l, x, hrounded, hne, .inr ⟨rfl, rfl⟩⟩
    | double y =>
      have hscaled : x.scaled = y.scaled := hsame
      rw [← truncate_of_toInteger? hj, Double.truncate_eq_tdiv, Double.truncate_eq_tdiv, hscaled]

theorem Inexact.sameValue {a b : Json} (h : a.Inexact b) : a.sameValue b = true := by
  obtain ⟨m, n, ha, hb, i, x, hrounded, -, hnumbers⟩ := h
  rw [sameValue_eq_of_numeric ha hb, Number.sameValue_iff]
  rcases hnumbers with ⟨rfl, rfl⟩ | ⟨rfl, rfl⟩
  · exact ⟨x, hrounded, rfl⟩
  · exact ⟨x, hrounded, rfl⟩

theorem IsScalar.distinct {a : Json} (ha : a.IsScalar) : a.Distinct := by
  cases a with
  | null => exact .null
  | bool b => exact .bool b
  | number n => exact .number n
  | string s => exact .string s
  | array | object => cases ha

end Json

namespace Argument

open Json.Number (isZero_of_toDouble?)

private theorem toInteger?_eq_of_sameValue {a b : Json} {i j : Int} (hsame : a.sameValue b = true)
    (hexact : ¬ a.Inexact b) (hi : toInteger? a = some i) (hj : toInteger? b = some j) : i = j := by
  have hscalar := Json.isScalar_of_toInteger? hi
  rcases hscalar.eq_or_numeric hsame with rfl | ⟨m, n, hm, hn, hnumbers⟩
  · exact Option.some.inj (hi.symm.trans hj)
  · exact hnumbers.toInteger?_eq (fun hinexact => hexact ⟨m, n, hm, hn, hinexact⟩)
      (Json.toInteger?_of_numeric hm hi) (Json.toInteger?_of_numeric hn hj)

/-- Equal values are the same float, or zeros that may have different signs. -/
theorem toDouble?_eq_or_isZero_of_sameValue {a b : Json} {x y : Double}
    (hsame : a.sameValue b = true) (hx : toDouble? a = some x) (hy : toDouble? b = some y) :
    x = y ∨ a.IsZero ∧ b.IsZero := by
  have hscalar := Json.isScalar_of_toDouble? hx
  rcases hscalar.eq_or_numeric hsame with rfl | ⟨m, n, hm, hn, hnumbers⟩
  · exact .inl (Option.some.inj (hx.symm.trans hy))
  · rw [Json.toDouble?_of_numeric hm] at hx
    rw [Json.toDouble?_of_numeric hn] at hy
    have hscaled := hnumbers.scaled_eq hx hy
    refine (Double.eq_or_isZero_of_scaled_eq hscaled).imp_right ?_
    rintro ⟨hxzero, hyzero⟩
    exact ⟨⟨m, hm, isZero_of_toDouble? hx hxzero⟩, n, hn, isZero_of_toDouble? hy hyzero⟩

/-- Two bounds are zeros of different signs that are given as numbers or as false. -/
def ZeroSigns (a b : Json) : Prop :=
  a.IsZero ∧ b.IsZero ∧ toDouble? a ≠ toDouble? b

/-- Two ranges have the same bounds, of which some zero has another sign. -/
def OnlyZeroSigns (r s : Json) : Prop :=
  ∃ a b a' b', r = .array [a, b] ∧ s = .array [a', b'] ∧ a.Same a' ∧ b.Same b' ∧
    (ZeroSigns a a' ∨ ZeroSigns b b')

private theorem exists_of_toRange? {r : Json} {bounds : Double × Double}
    (hr : toRange? r = some bounds) :
    ∃ a b, r = .array [a, b] ∧ toDouble? a = some bounds.1 ∧ toDouble? b = some bounds.2 := by
  unfold toRange? at hr
  split at hr
  · next a b =>
    simp only [Option.bind_eq_bind, Option.bind_eq_some_iff, Option.pure_def,
      Option.some.injEq] at hr
    obtain ⟨x, hx, y, hy, rfl⟩ := hr
    exact ⟨a, b, rfl, hx, hy⟩
  · cases hr

private theorem sameValue_pair (a b a' b' : Json) :
    (Json.array [a, b]).sameValue (.array [a', b']) = (a.sameValue a' && b.sameValue b') := by
  simp [Json.sameValue, Json.sameItems]

/-- Equal ranges are the same pairs of floats, or some of their zeros have different signs. -/
theorem eq_or_onlyZeroSigns_of_sameValue {r s : Json} {bounds bounds' : Double × Double}
    (hsame : r.sameValue s = true) (hr : toRange? r = some bounds)
    (hs : toRange? s = some bounds') : bounds = bounds' ∨ OnlyZeroSigns r s := by
  obtain ⟨a, b, rfl, ha, hb⟩ := exists_of_toRange? hr
  obtain ⟨a', b', rfl, ha', hb'⟩ := exists_of_toRange? hs
  rw [sameValue_pair, Bool.and_eq_true] at hsame
  have hlow : a.Same a' := ((Json.isScalar_of_toDouble? ha).distinct.sameValue_iff
    (Json.isScalar_of_toDouble? ha').distinct).mp hsame.1
  have hhigh : b.Same b' := ((Json.isScalar_of_toDouble? hb).distinct.sameValue_iff
    (Json.isScalar_of_toDouble? hb').distinct).mp hsame.2
  by_cases hbounds : bounds = bounds'
  · exact .inl hbounds
  · refine .inr ⟨a, b, a', b', rfl, rfl, hlow, hhigh, ?_⟩
    rw [Prod.ext_iff, not_and_or] at hbounds
    refine hbounds.imp (fun hne => ?_) fun hne => ?_
    · obtain ⟨hzero, hzero'⟩ :=
        (toDouble?_eq_or_isZero_of_sameValue hsame.1 ha ha').resolve_left hne
      exact ⟨hzero, hzero', by simpa [ha, ha'] using hne⟩
    · obtain ⟨hzero, hzero'⟩ :=
        (toDouble?_eq_or_isZero_of_sameValue hsame.2 hb hb').resolve_left hne
      exact ⟨hzero, hzero', by simpa [hb, hb'] using hne⟩

theorem OnlyZeroSigns.sameValue {r s : Json} {bounds bounds' : Double × Double}
    (h : OnlyZeroSigns r s) (hr : toRange? r = some bounds) (hs : toRange? s = some bounds') :
    r.sameValue s = true := by
  obtain ⟨a, b, a', b', rfl, rfl, hlow, hhigh, -⟩ := h
  obtain ⟨_, _, ⟨⟩, ha, hb⟩ := exists_of_toRange? hr
  obtain ⟨_, _, ⟨⟩, ha', hb'⟩ := exists_of_toRange? hs
  rw [sameValue_pair, Bool.and_eq_true]
  exact ⟨((Json.isScalar_of_toDouble? ha).distinct.sameValue_iff
    (Json.isScalar_of_toDouble? ha').distinct).mpr hlow,
    ((Json.isScalar_of_toDouble? hb).distinct.sameValue_iff
      (Json.isScalar_of_toDouble? hb').distinct).mpr hhigh⟩

/-- A value that is set and has another literal than the default is equal to it in two cases
only. -/
theorem sameValue_iff_of_literal?_ne {kind : ArgumentKind} {d v : Json} {s t : String}
    (hset : v.isTruthy = true) (hs : literal? kind v = some s) (ht : literal? kind d = some t)
    (hne : s ≠ t) :
    d.sameValue v = true ↔ kind = .range ∧ OnlyZeroSigns d v ∨ kind = .int ∧ d.Inexact v := by
  constructor
  · intro hsame
    cases kind with
    | int =>
      obtain ⟨i, hi, rfl⟩ := Option.map_eq_some_iff.mp hs
      obtain ⟨j, hj, rfl⟩ := Option.map_eq_some_iff.mp ht
      refine .inr ⟨rfl, ?_⟩
      by_contra hexact
      exact hne (by rw [toInteger?_eq_of_sameValue hsame hexact hj hi])
    | float =>
      obtain ⟨x, hx, rfl⟩ := Option.map_eq_some_iff.mp hs
      obtain ⟨y, hy, rfl⟩ := Option.map_eq_some_iff.mp ht
      rcases toDouble?_eq_or_isZero_of_sameValue hsame hy hx with rfl | ⟨-, hzero⟩
      · exact absurd rfl hne
      · cases hset.symm.trans hzero.not_isTruthy
    | range =>
      obtain ⟨bounds, hv, rfl⟩ := Option.map_eq_some_iff.mp hs
      obtain ⟨bounds', hd, rfl⟩ := Option.map_eq_some_iff.mp ht
      refine .inl ⟨rfl, (eq_or_onlyZeroSigns_of_sameValue hsame hd hv).resolve_left ?_⟩
      rintro rfl
      exact hne rfl
    | string | array | unknown => cases hs
  · rintro (⟨rfl, hzeros⟩ | ⟨rfl, hinexact⟩)
    · obtain ⟨bounds, hv, -⟩ := Option.map_eq_some_iff.mp hs
      obtain ⟨bounds', hd, -⟩ := Option.map_eq_some_iff.mp ht
      exact hzeros.sameValue hd hv
    · exact hinexact.sameValue

end Argument

/-- The design passes an argument to the part that a component stands for: its block does, or the
class does that the block is of and that wraps the part. -/
def Declarations.Passes (d : Declarations) (c : Component) (w : Argument.Written) : Prop :=
  ∃ b ∈ d.blocks, b.name = c.name ∧
    (b.className = c.type ∧ w ∈ b.arguments ∨
      ∃ k ∈ d.connectors, k.className = b.className ∧ k.wrappedClass = c.type ∧ w ∈ k.arguments)

theorem Netlist.passes_of_lower {registry : Registry} {header : ModuleHeader} {n : Netlist}
    {d : Declarations} (hd : n.lower registry header = .ok d) {entry : String × Component}
    (hentry : entry ∈ n.nodes) {w : Argument.Written}
    (hw : w ∈ Argument.written entry.2.arguments) : d.Passes entry.2 w := by
  obtain ⟨-, -, rfl⟩ := lower_eq_ok_iff.mp hd
  let node := Circuit.nodeOf registry entry
  have hnode : node ∈ (n.circuit registry).nodes := List.mem_map_of_mem hentry
  refine ⟨node.block, List.mem_append_left _ (List.mem_map_of_mem hnode), node.block_name, ?_⟩
  by_cases hrole : node.role = .connector
  · obtain ⟨i, hi⟩ := List.mem_iff_getElem?.mp hnode
    have hindexed : (node, i) ∈ (n.circuit registry).nodes.zipIdx :=
      List.mem_zipIdx_iff_getElem?.mpr hi
    refine .inr ⟨_, List.mem_filterMap.mpr ⟨(node, i), hindexed, if_pos hrole⟩, ?_, rfl, hw⟩
    rw [Circuit.Node.block, if_pos hrole]
  · rw [Circuit.Node.block, if_neg hrole]
    exact .inl ⟨rfl, hw⟩

namespace Argument

/-- A value that is set, and has another literal than the default, is written out with its literal,
among the arguments and in the design. It is lost in two cases only: a range has the bounds of the
default but for the sign of a zero, or under the kind of integers one of the two is an integer and
the other one a float that it is rounded to. -/
theorem override_written {a : Argument} {v d : Json} {s t : String} (hvalue : a.value = some v)
    (hset : v.isTruthy = true) (hdefault : a.default = some d) (hs : literal? a.kind v = some s)
    (ht : literal? a.kind d = some t) (hne : s ≠ t) :
    (a.isExplicit = true ↔
      ¬ (a.kind = .range ∧ OnlyZeroSigns d v) ∧ ¬ (a.kind = .int ∧ d.Inexact v)) ∧
    (a.isExplicit = true →
      (∀ node arguments ws, a ∈ arguments → writeAll node arguments = .ok ws →
        ⟨a.name, s⟩ ∈ ws) ∧
      ∀ registry header (n : Netlist) declarations, n.lower registry header = .ok declarations →
        ∀ entry ∈ n.nodes, a ∈ entry.2.arguments → declarations.Passes entry.2 ⟨a.name, s⟩) := by
  have hdiffers : a.isExplicit = true ↔ d.sameValue v = false := by
    rw [← Bool.not_eq_false, isExplicit_eq_false_iff, hvalue, hdefault]
    simp [hset]
  constructor
  · rw [hdiffers, Bool.eq_false_iff, Ne, sameValue_iff_of_literal?_ne hset hs ht hne, not_or]
  · intro hwritten
    have hexplicit := explicit?_eq_some hvalue hset hdefault (hdiffers.mp hwritten)
    refine ⟨fun node arguments ws ha hws => ?_,
      fun registry header n declarations hlower entry hentry ha => ?_⟩
    · obtain ⟨-, rfl⟩ := writeAll_eq_ok_iff.mp hws
      exact mem_written ha hexplicit hs
    · exact Netlist.passes_of_lower hlower hentry (mem_written ha hexplicit hs)

/-- A range with floats for bounds. -/
def rangeOf (low high : Double) : Json :=
  .array [.number (.double low), .number (.double high)]

/-- An argument that takes a range. -/
def spanArgument (default value : Json) : Argument :=
  { name := "span", kind := .range, default := some default, value := some value }

/-- A board with one source that has the argument. -/
def sourceBoard (a : Argument) : Netlist where
  nodes := [("s", {
    id := "s"
    name := "V1"
    type := "Source"
    superClasses := []
    ports := []
    arguments := [a] })]
  labels := []

/-- Two to the power of `e`. -/
def twoPow (e : Nat) (he : 1022 + e ≤ 2045) : Double :=
  { Double.one with exponent := 1022 + e, exponent_le := he, normal := .inr le_rfl }

/-- An argument that is set to an integer between two floats. -/
def countArgument (default : Double) : Argument where
  name := "count"
  kind := .int
  default := some (.number (.double default))
  value := some (.number (.integer ⟨9007199254740993, by omega, by omega⟩))

/-- The lower bounds differ in their sign only, but the upper ones in their value; and the integer
stands beside a float that is not near. -/
theorem override_written_span :
    let a := spanArgument (rangeOf (.zero true) .one) (rangeOf (.zero false) (twoPow 1 (by omega)))
    let design : Declarations := ⟨{}, [], [⟨"V1", "Source", [⟨"span", "(0.0, 2.0)"⟩]⟩], []⟩
    a.isExplicit = true ∧ writeAll "V1" [a] = .ok [⟨"span", "(0.0, 2.0)"⟩] ∧
      (sourceBoard a).lower .builtin {} = .ok design ∧
      (∀ entry ∈ (sourceBoard a).nodes, design.Passes entry.2 ⟨"span", "(0.0, 2.0)"⟩) ∧
      (countArgument (twoPow 1 (by omega))).isExplicit = true := by
  intro a design
  have hzeros : ¬ (a.kind = .range ∧
      OnlyZeroSigns (rangeOf (.zero true) .one) (rangeOf (.zero false) (twoPow 1 (by omega)))) := by
    rintro ⟨-, _, _, _, _, ⟨⟩, ⟨⟩, -, hsame, -⟩
    cases hsame with
    | numeric hm hn hnumbers =>
      cases hm
      cases hn
      exact absurd (Json.Number.sameValue_iff.mpr hnumbers) (by decide +kernel)
  obtain ⟨hexplicit, hwritten⟩ := @override_written a _ _ "(0.0, 2.0)" "(-0.0, 1.0)" rfl rfl rfl
    (by decide +kernel) (by decide +kernel) (by decide)
  have hset := hexplicit.mpr ⟨hzeros, by rintro ⟨⟨⟩, -⟩⟩
  have hlower : (sourceBoard a).lower .builtin {} = .ok design :=
    eq_ok_of_toOption_eq_some (by decide +kernel)
  refine ⟨hset, eq_ok_of_toOption_eq_some (by decide +kernel), hlower, fun entry hentry => ?_, ?_⟩
  · refine (hwritten hset).2 _ _ _ _ hlower entry hentry ?_
    rw [List.mem_singleton.mp hentry]
    exact List.mem_singleton_self a
  · refine (@override_written (countArgument (twoPow 1 (by omega))) _ _ "9007199254740993" "2" rfl
      rfl rfl (by decide +kernel) (by decide +kernel) (by decide)).1.mpr ⟨by rintro ⟨⟨⟩, -⟩, ?_⟩
    rintro ⟨-, _, _, ⟨⟩, ⟨⟩, i, x, hrounded, -, ⟨⟨⟩, -⟩ | ⟨⟨⟩, ⟨⟩⟩⟩
    exact absurd hrounded (by decide +kernel)

/-- What is left aside is lost: the sign of a zero in a range, and an integer beside a float that it
is rounded to. -/
theorem override_lost :
    let a := spanArgument (rangeOf (.zero true) .one) (rangeOf (.zero false) .one)
    let b := countArgument (twoPow 53 (by omega))
    (a.value.any (·.isTruthy) = true ∧ a.value.bind (literal? a.kind) = some "(0.0, 1.0)" ∧
      a.default.bind (literal? a.kind) = some "(-0.0, 1.0)" ∧ a.isExplicit = false) ∧
    b.value.any (·.isTruthy) = true ∧ b.value.bind (literal? b.kind) = some "9007199254740993" ∧
      b.default.bind (literal? b.kind) = some "9007199254740992" ∧ b.isExplicit = false := by
  decide +kernel

end Argument

end Schematic
