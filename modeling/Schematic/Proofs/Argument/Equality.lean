import Mathlib.Data.List.Perm.Subperm
import Mathlib.Data.List.Zip
import Mathlib.Data.Option.Basic
import Mathlib.Logic.Relation
import Schematic.Argument.Equality
import Schematic.Proofs.Json.Values

namespace Schematic

namespace Json

/-- No object has two fields of one key, however deep it is. -/
inductive Distinct : Json → Prop where
  | null : Distinct .null
  | bool (b : Bool) : Distinct (.bool b)
  | number (n : Number) : Distinct (.number n)
  | string (s : String) : Distinct (.string s)
  | array {items : List Json} (hitems : ∀ j ∈ items, Distinct j) : Distinct (.array items)
  | object {fields : List (String × Json)} (hkeys : (fields.map (·.1)).Nodup)
      (hfields : ∀ e ∈ fields, Distinct e.2) : Distinct (.object fields)

theorem Distinct.items {items : List Json} (h : Distinct (.array items)) :
    ∀ j ∈ items, Distinct j := by
  cases h with
  | array hitems => exact hitems

theorem Distinct.keys {fields : List (String × Json)} (h : Distinct (.object fields)) :
    (fields.map (·.1)).Nodup := by
  cases h with
  | object hkeys _ => exact hkeys

theorem Distinct.fields {fields : List (String × Json)} (h : Distinct (.object fields)) :
    ∀ e ∈ fields, Distinct e.2 := by
  cases h with
  | object _ hfields => exact hfields

theorem Document.readCases_distinct : ReadCases fun _ j => j.Distinct where
  null _ := .null
  bool _ := .bool
  number _ := .number
  string _ := .string
  array _ _ hjs := .array hjs
  object _ entries hentries :=
    .object (nodup_keys_ofEntries entries) fun e he => hentries e (mem_of_mem_ofEntries he)

/-- The value of a document has distinct keys, whatever keys the document repeats. -/
theorem Document.distinct_of_value? {d : Document} {depth : Nat} {j : Json}
    (hread : d.value? depth = some j) : j.Distinct :=
  readCases_distinct.value d hread

namespace Number

/-- Integers are the same if they are equal; against a binary64 number an integer counts as the
nearest binary64 number, and such numbers are the same if their values are. -/
def Same : Number → Number → Prop
  | integer i, integer j => i.val = j.val
  | integer i, double y => ∃ x, Double.ofInt? i.val = some x ∧ x.scaled = y.scaled
  | double x, integer j => ∃ y, Double.ofInt? j.val = some y ∧ y.scaled = x.scaled
  | double x, double y => x.scaled = y.scaled

theorem sameValue_iff {m n : Number} : m.sameValue n = true ↔ m.Same n := by
  cases m with
  | integer i =>
    cases n with
    | integer j => exact beq_iff_eq
    | double y =>
      rw [sameValue, Same]
      cases Double.ofInt? i.val <;> simp [Double.sameValue_iff]
  | double x =>
    cases n with
    | integer j =>
      rw [sameValue, Same]
      cases Double.ofInt? j.val <;> simp [x.sameValue_comm, Double.sameValue_iff]
    | double y => exact Double.sameValue_iff

theorem Same.symm {m n : Number} (h : m.Same n) : n.Same m := by
  cases m with
  | integer i =>
    cases n with
    | integer j => exact Eq.symm h
    | double y => exact h
  | double x =>
    cases n with
    | integer j => exact h
    | double y => exact Eq.symm h

private theorem sameValue_refl (n : Number) : n.sameValue n = true := by
  cases n with
  | integer i => exact beq_self_eq_true i.val
  | double x => exact x.sameValue_refl

private theorem sameValue_comm (m n : Number) : m.sameValue n = n.sameValue m := by
  rw [Bool.eq_iff_iff, sameValue_iff, sameValue_iff]
  exact ⟨Same.symm, Same.symm⟩

end Number

/-- The number that a value counts as in comparisons: one for true and zero for false. -/
def numeric? : Json → Option Number
  | number n => some n
  | bool b => some (.ofBool b)
  | _ => none

theorem sameValue_eq_of_numeric {a b : Json} {m n : Number} (ha : a.numeric? = some m)
    (hb : b.numeric? = some n) : a.sameValue b = m.sameValue n := by
  cases a with
  | bool a =>
    cases ha
    cases b with
    | bool b =>
      cases hb
      cases a <;> cases b <;> rfl
    | number n =>
      cases hb
      exact n.sameValue_comm (.ofBool a)
    | _ => cases hb
  | number m =>
    cases ha
    cases b with
    | bool b | number n =>
      cases hb
      rfl
    | _ => cases hb
  | _ => cases ha

private theorem lookup_eq_some_iff_mem {α : Type} {fields : List (String × α)}
    (hkeys : (fields.map (·.1)).Nodup) {key : String} {a : α} :
    fields.lookup key = some a ↔ (key, a) ∈ fields := by
  constructor
  · intro hlookup
    obtain ⟨before, after, rfl, -⟩ := List.lookup_eq_some_iff.mp hlookup
    exact List.mem_append_right before List.mem_cons_self
  · intro hmem
    obtain ⟨before, after, rfl⟩ := List.append_of_mem hmem
    refine List.lookup_eq_some_iff.mpr ⟨before, after, rfl, fun e he => bne_iff_ne.mpr ?_⟩
    rw [List.map_append, List.map_cons] at hkeys
    exact fun hkey => (List.nodup_append.mp hkeys).2.2 e.1 (List.mem_map_of_mem he) key
      List.mem_cons_self hkey.symm

theorem sameFields_iff {xs ys : List (String × Json)} :
    sameFields xs ys = true ↔
      ∀ e ∈ xs, ∃ y, ys.lookup e.1 = some y ∧ e.2.sameValue y = true := by
  induction xs with
  | nil => simp [sameFields]
  | cons e xs ih =>
    rw [sameFields, Bool.and_eq_true, ih, List.forall_mem_cons]
    cases ys.lookup e.1 with
    | none => simp
    | some y => simp

private theorem sameFields_iff_of_nodup {xs ys : List (String × Json)}
    (hkeys : (ys.map (·.1)).Nodup) :
    sameFields xs ys = true ↔
      ∀ e ∈ xs, ∃ f ∈ ys, f.1 = e.1 ∧ e.2.sameValue f.2 = true := by
  rw [sameFields_iff]
  refine forall₂_congr fun e _ => ?_
  simp only [lookup_eq_some_iff_mem hkeys]
  constructor
  · rintro ⟨y, hy, hsame⟩
    exact ⟨(e.1, y), hy, rfl, hsame⟩
  · rintro ⟨⟨k, y⟩, hf, rfl, hsame⟩
    exact ⟨y, hf, hsame⟩

/-- As many keys of one side as the other has, all found there, leave none out. -/
theorem perm_keys {xs ys : List (String × Json)} (hxs : (xs.map (·.1)).Nodup)
    (hlength : xs.length = ys.length) (hkeys : ∀ e ∈ xs, ∃ f ∈ ys, f.1 = e.1) :
    (xs.map (·.1)).Perm (ys.map (·.1)) := by
  have hsubset : xs.map (·.1) ⊆ ys.map (·.1) := by
    intro k hk
    obtain ⟨e, he, rfl⟩ := List.mem_map.mp hk
    obtain ⟨f, hf, hkey⟩ := hkeys e he
    exact List.mem_map.mpr ⟨f, hf, hkey⟩
  apply (List.subperm_of_subset hxs hsubset).perm_of_length_le
  rw [List.length_map, List.length_map]
  omega

theorem sameItems_iff {xs ys : List Json} :
    sameItems xs ys = true ↔
      xs.length = ys.length ∧ ∀ x y, (x, y) ∈ xs.zip ys → x.sameValue y = true := by
  induction xs generalizing ys with
  | nil => cases ys <;> simp [sameItems]
  | cons x xs ih =>
    cases ys with
    | nil => simp [sameItems]
    | cons y ys =>
      rw [sameItems, Bool.and_eq_true, ih, List.length_cons, List.length_cons, List.zip_cons_cons]
      simp only [Nat.add_right_cancel_iff, List.mem_cons, Prod.mk.injEq]
      constructor
      · rintro ⟨hfirst, hlength, hrest⟩
        refine ⟨hlength, ?_⟩
        rintro a b (⟨rfl, rfl⟩ | hmem)
        · exact hfirst
        · exact hrest a b hmem
      · rintro ⟨hlength, hitems⟩
        exact ⟨hitems x y (.inl ⟨rfl, rfl⟩), hlength, fun a b hmem => hitems a b (.inr hmem)⟩

private theorem sameItems_refl {items : List Json} (hitems : ∀ j ∈ items, j.sameValue j = true) :
    sameItems items items = true := by
  induction items with
  | nil => rfl
  | cons j items ih =>
    obtain ⟨hj, hrest⟩ := List.forall_mem_cons.mp hitems
    rw [sameItems, hj, ih hrest, Bool.and_self]

/-- Equal argument values: the same text, numbers that are the same, arrays with equal items in
order, and objects with the same keys and equal values under each of them. -/
inductive Same : Json → Json → Prop where
  | null : Same .null .null
  | string (s : String) : Same (.string s) (.string s)
  | numeric {a b : Json} {m n : Number} (ha : a.numeric? = some m) (hb : b.numeric? = some n)
      (hsame : m.Same n) : Same a b
  | array {xs ys : List Json} (hlength : xs.length = ys.length)
      (hitems : ∀ x y, (x, y) ∈ xs.zip ys → Same x y) : Same (.array xs) (.array ys)
  | object {xs ys : List (String × Json)} (hkeys : (xs.map (·.1)).Perm (ys.map (·.1)))
      (hfields : ∀ k x y, (k, x) ∈ xs → (k, y) ∈ ys → Same x y) : Same (.object xs) (.object ys)

theorem Same.symm {a b : Json} (h : Same a b) : Same b a := by
  induction h with
  | null => exact .null
  | string s => exact .string s
  | numeric ha hb hsame => exact .numeric hb ha hsame.symm
  | array hlength _ ih =>
    refine .array hlength.symm fun x y hmem => ih y x ?_
    rw [← List.zip_swap]
    exact List.mem_map.mpr ⟨(x, y), hmem, rfl⟩
  | object hkeys _ ih => exact .object hkeys.symm fun k x y hx hy => ih k y x hy hx

theorem Distinct.sameValue_refl {a : Json} (ha : a.Distinct) : a.sameValue a = true := by
  induction ha with
  | null => rfl
  | bool b => exact beq_self_eq_true b
  | number n => exact n.sameValue_refl
  | string s => exact beq_self_eq_true s
  | array _ ih => exact sameItems_refl ih
  | @object fields hkeys _ ih =>
    rw [sameValue, beq_self_eq_true, Bool.true_and, sameFields_iff_of_nodup hkeys]
    exact fun e he => ⟨e, he, rfl, ih e he⟩

private theorem same_iff_of_numeric {a b : Json} {m n : Number} (ha : a.numeric? = some m)
    (hb : b.numeric? = some n) : Same a b ↔ m.Same n := by
  constructor
  · intro h
    cases h with
    | numeric ha' hb' hsame =>
      cases ha.symm.trans ha'
      cases hb.symm.trans hb'
      exact hsame
    | _ => cases ha
  · exact .numeric ha hb

/-- Though only the fields of one side are gone through, those of the other side are all met. -/
theorem sameFields_iff_of_distinct {xs ys : List (String × Json)} (hxs : (xs.map (·.1)).Nodup)
    (hys : (ys.map (·.1)).Nodup) :
    xs.length = ys.length ∧ sameFields xs ys = true ↔
      (xs.map (·.1)).Perm (ys.map (·.1)) ∧
        ∀ k x y, (k, x) ∈ xs → (k, y) ∈ ys → x.sameValue y = true := by
  rw [sameFields_iff_of_nodup hys]
  constructor
  · rintro ⟨hlength, hsame⟩
    refine ⟨perm_keys hxs hlength fun e he => ?_, fun k x y hx hy => ?_⟩
    · obtain ⟨f, hf, hkey, -⟩ := hsame e he
      exact ⟨f, hf, hkey⟩
    · obtain ⟨f, hf, hkey, hvalue⟩ := hsame (k, x) hx
      obtain rfl : f = (k, y) := List.inj_on_of_nodup_map hys hf hy hkey
      exact hvalue
  · rintro ⟨hkeys, hfields⟩
    refine ⟨by simpa using hkeys.length_eq, fun e he => ?_⟩
    obtain ⟨f, hf, hkey⟩ := List.mem_map.mp (hkeys.mem_iff.mp (List.mem_map_of_mem he))
    refine ⟨f, hf, hkey, hfields e.1 e.2 f.2 he ?_⟩
    rwa [← hkey]

theorem Distinct.sameValue_iff {a b : Json} (ha : a.Distinct) (hb : b.Distinct) :
    a.sameValue b = true ↔ Same a b := by
  induction ha generalizing b with
  | null =>
    cases b with
    | null => exact iff_of_true rfl .null
    | _ =>
      refine iff_of_false Bool.false_ne_true fun h => ?_
      cases h with
      | numeric ha => cases ha
  | bool | number =>
    cases b with
    | bool | number =>
      rw [same_iff_of_numeric rfl rfl, ← Number.sameValue_iff, sameValue_eq_of_numeric rfl rfl]
    | _ =>
      refine iff_of_false Bool.false_ne_true fun h => ?_
      cases h with
      | numeric _ hb => cases hb
  | string s =>
    cases b with
    | string t =>
      rw [sameValue, beq_iff_eq]
      constructor
      · rintro rfl
        exact .string s
      · intro h
        cases h with
        | string => rfl
        | numeric ha => cases ha
    | _ =>
      refine iff_of_false Bool.false_ne_true fun h => ?_
      cases h with
      | numeric ha => cases ha
  | @array xs _ ih =>
    cases b with
    | array ys =>
      have hparts : ∀ x y, (x, y) ∈ xs.zip ys → (x.sameValue y = true ↔ Same x y) := by
        intro x y hmem
        obtain ⟨hx, hy⟩ := List.of_mem_zip hmem
        exact ih x hx (hb.items y hy)
      rw [sameValue, sameItems_iff]
      constructor
      · rintro ⟨hlength, hitems⟩
        exact .array hlength fun x y hmem => (hparts x y hmem).mp (hitems x y hmem)
      · intro h
        cases h with
        | array hlength hitems =>
          exact ⟨hlength, fun x y hmem => (hparts x y hmem).mpr (hitems x y hmem)⟩
        | numeric ha => cases ha
    | _ =>
      refine iff_of_false Bool.false_ne_true fun h => ?_
      cases h with
      | numeric ha => cases ha
  | @object xs hxs _ ih =>
    cases b with
    | object ys =>
      have hparts : ∀ k x y, (k, x) ∈ xs → (k, y) ∈ ys → (x.sameValue y = true ↔ Same x y) :=
        fun k x y hx hy => ih (k, x) hx (hb.fields (k, y) hy)
      rw [sameValue, Bool.and_eq_true, beq_iff_eq, sameFields_iff_of_distinct hxs hb.keys]
      constructor
      · rintro ⟨hkeys, hfields⟩
        exact .object hkeys fun k x y hx hy => (hparts k x y hx hy).mp (hfields k x y hx hy)
      · intro h
        cases h with
        | object hkeys hfields =>
          exact ⟨hkeys, fun k x y hx hy => (hparts k x y hx hy).mpr (hfields k x y hx hy)⟩
        | numeric ha => cases ha
    | _ =>
      refine iff_of_false Bool.false_ne_true fun h => ?_
      cases h with
      | numeric ha => cases ha

theorem Distinct.sameValue_comm {a b : Json} (ha : a.Distinct) (hb : b.Distinct) :
    a.sameValue b = b.sameValue a := by
  rw [Bool.eq_iff_iff, ha.sameValue_iff hb, hb.sameValue_iff ha]
  exact ⟨Same.symm, Same.symm⟩

/-- The fields of one object, at some depth, come in another order. -/
inductive Reorder : Json → Json → Prop where
  | fields {xs ys : List (String × Json)} (hperm : xs.Perm ys) : Reorder (.object xs) (.object ys)
  | inItem (before after : List Json) {j j' : Json} (hitem : Reorder j j') :
      Reorder (.array (before ++ j :: after)) (.array (before ++ j' :: after))
  | inField (before after : List (String × Json)) (key : String) {j j' : Json}
      (hfield : Reorder j j') :
      Reorder (.object (before ++ (key, j) :: after)) (.object (before ++ (key, j') :: after))

/-- The fields of any objects, at any depth, come in another order. -/
def Reordered : Json → Json → Prop :=
  Relation.ReflTransGen Reorder

theorem Reorder.distinct {a a' : Json} (h : Reorder a a') (ha : a.Distinct) : a'.Distinct := by
  induction h with
  | fields hperm =>
    refine .object ((hperm.map (·.1)).nodup_iff.mp ha.keys) fun e he => ?_
    exact ha.fields e (hperm.mem_iff.mpr he)
  | inItem before after _ ih =>
    have hitems := ha.items
    rw [List.forall_mem_append, List.forall_mem_cons] at hitems
    refine .array ?_
    rw [List.forall_mem_append, List.forall_mem_cons]
    exact ⟨hitems.1, ih hitems.2.1, hitems.2.2⟩
  | inField before after key _ ih =>
    have hkeys := ha.keys
    have hfields := ha.fields
    rw [List.forall_mem_append, List.forall_mem_cons] at hfields
    rw [List.map_append, List.map_cons] at hkeys
    refine .object ?_ ?_
    · rwa [List.map_append, List.map_cons]
    · rw [List.forall_mem_append, List.forall_mem_cons]
      exact ⟨hfields.1, ih hfields.2.1, hfields.2.2⟩

private theorem sameItems_congr_left {before after ys : List Json} {j j' : Json}
    (hitem : ∀ b, j.sameValue b = j'.sameValue b) :
    sameItems (before ++ j :: after) ys = sameItems (before ++ j' :: after) ys := by
  induction before generalizing ys with
  | nil =>
    cases ys with
    | nil => rfl
    | cons y ys => rw [List.nil_append, List.nil_append, sameItems, sameItems, hitem]
  | cons x before ih =>
    cases ys with
    | nil => rfl
    | cons y ys => rw [List.cons_append, List.cons_append, sameItems, sameItems, ih]

/-- On the left side no key has to be distinct, for it is the other side that is searched. -/
theorem Reorder.sameValue_left {a a' : Json} (h : Reorder a a') (b : Json) :
    a.sameValue b = a'.sameValue b := by
  induction h generalizing b with
  | @fields xs ys hperm =>
    cases b with
    | object zs =>
      have hsame : sameFields xs zs = sameFields ys zs := by
        rw [Bool.eq_iff_iff, sameFields_iff, sameFields_iff]
        exact forall_congr' fun e => by rw [hperm.mem_iff]
      rw [sameValue, sameValue, hperm.length_eq, hsame]
    | _ => rfl
  | inItem before after _ ih =>
    cases b with
    | array ys => exact sameItems_congr_left ih
    | _ => rfl
  | @inField before after key j j' _ ih =>
    cases b with
    | object zs =>
      have hsame : sameFields (before ++ (key, j) :: after) zs =
          sameFields (before ++ (key, j') :: after) zs := by
        rw [Bool.eq_iff_iff, sameFields_iff, sameFields_iff]
        simp only [List.forall_mem_append, List.forall_mem_cons, ih]
      rw [sameValue, sameValue, hsame, List.length_append, List.length_append, List.length_cons,
        List.length_cons]
    | _ => rfl

theorem Reordered.distinct {a a' : Json} (h : Reordered a a') (ha : a.Distinct) :
    a'.Distinct := by
  induction h with
  | refl => exact ha
  | tail _ hstep ih => exact hstep.distinct ih

theorem Reordered.sameValue_left {a a' : Json} (h : Reordered a a') (b : Json) :
    a.sameValue b = a'.sameValue b := by
  induction h with
  | refl => rfl
  | tail _ hstep ih => rw [ih, hstep.sameValue_left b]

theorem Reordered.sameValue {a a' b b' : Json} (ha : a.Distinct) (hb : b.Distinct)
    (haa' : Reordered a a') (hbb' : Reordered b b') : a'.sameValue b' = a.sameValue b := by
  calc a'.sameValue b' = a.sameValue b' := (haa'.sameValue_left b').symm
    _ = b'.sameValue a := ha.sameValue_comm (hbb'.distinct hb)
    _ = b.sameValue a := (hbb'.sameValue_left a).symm
    _ = a.sameValue b := hb.sameValue_comm ha

theorem sameOptional_iff {a b : Option Json} (ha : ∀ j ∈ a, j.Distinct)
    (hb : ∀ j ∈ b, j.Distinct) : sameOptional a b = true ↔ Option.Rel Same a b := by
  cases a with
  | none =>
    cases b with
    | none => exact iff_of_true rfl .none
    | some y => exact iff_of_false Bool.false_ne_true (by rintro ⟨⟩)
  | some x =>
    cases b with
    | none => exact iff_of_false Bool.false_ne_true (by rintro ⟨⟩)
    | some y => rw [sameOptional, (ha x rfl).sameValue_iff (hb y rfl), Option.rel_some_some]

/-- Values are compared by what they are: every value equals itself, the sides may be exchanged, and
the order of fields does not matter on either side at any depth. -/
theorem sameOptional_laws {a b a' b' : Option Json} (ha : ∀ j ∈ a, j.Distinct)
    (hb : ∀ j ∈ b, j.Distinct) (haa' : Option.Rel Reordered a a')
    (hbb' : Option.Rel Reordered b b') :
    (sameOptional a b = true ↔ Option.Rel Same a b) ∧ sameOptional a a = true ∧
      sameOptional a b = sameOptional b a ∧ sameOptional a' b' = sameOptional a b := by
  refine ⟨sameOptional_iff ha hb, ?_⟩
  cases haa' with
  | none =>
    cases hbb' with
    | none => exact ⟨rfl, rfl, rfl⟩
    | some _ => exact ⟨rfl, rfl, rfl⟩
  | @some x x' hxx' =>
    have hx : x.Distinct := ha x rfl
    cases hbb' with
    | none => exact ⟨hx.sameValue_refl, rfl, rfl⟩
    | @some y y' hyy' =>
      have hy : y.Distinct := hb y rfl
      exact ⟨hx.sameValue_refl, hx.sameValue_comm hy, Reordered.sameValue hx hy hxx' hyy'⟩

/-- A gain and a list of one pair of limits. -/
def gainAndLimits (gain low high : Json) : Json :=
  .object [("gain", gain), ("limits", .array [.object [("low", low), ("high", high)]])]

/-- The same with the fields of both objects the other way round. -/
def limitsAndGain (gain low high : Json) : Json :=
  .object [("limits", .array [.object [("high", high), ("low", low)]]), ("gain", gain)]

private theorem reordered_limitsAndGain (gain low high : Json) :
    Reordered (gainAndLimits gain low high) (limitsAndGain gain low high) := by
  have hinner : Reorder (.object [("low", low), ("high", high)])
      (.object [("high", high), ("low", low)]) := .fields (.swap ..)
  have hitem := Reorder.inField [("gain", gain)] [] "limits" (.inItem [] [] hinner)
  exact .tail (.single hitem) (.fields (.swap ..))

private theorem distinct_gainAndLimits {gain low high : Json} (hgain : gain.Distinct)
    (hlow : low.Distinct) (hhigh : high.Distinct) : (gainAndLimits gain low high).Distinct := by
  have hpair : Distinct (.object [("low", low), ("high", high)]) :=
    .object (by simp) (by simp [hlow, hhigh])
  have hlimits : Distinct (.array [.object [("low", low), ("high", high)]]) :=
    .array (by simpa using hpair)
  exact .object (by simp) (by simp [hgain, hlimits])

/-- Truth values on one side stand against numbers on the other. -/
theorem sameOptional_laws_limits :
    let one : Json := .number (.double .one)
    let zero : Json := .number (.double (.zero true))
    let a := gainAndLimits (.bool true) zero one
    let b := gainAndLimits one (.bool false) (.bool true)
    let a' := limitsAndGain (.bool true) zero one
    let b' := limitsAndGain one (.bool false) (.bool true)
    a.Distinct ∧ b.Distinct ∧ Reordered a a' ∧ Reordered b b' ∧
      (sameOptional a b = true ↔ Option.Rel Same (some a) b) ∧ sameOptional a a = true ∧
      sameOptional a b = sameOptional b a ∧ sameOptional a' b' = sameOptional a b := by
  intro one zero a b a' b'
  have ha : a.Distinct := distinct_gainAndLimits (.bool true) (.number _) (.number _)
  have hb : b.Distinct := distinct_gainAndLimits (.number _) (.bool false) (.bool true)
  have haa' : Reordered a a' := reordered_limitsAndGain ..
  have hbb' : Reordered b b' := reordered_limitsAndGain ..
  exact ⟨ha, hb, haa', hbb', sameOptional_laws (by rintro _ ⟨⟩; exact ha)
    (by rintro _ ⟨⟩; exact hb) (.some haa') (.some hbb')⟩

end Json

end Schematic
