import Schematic.Proofs.Json.Records

namespace Schematic.Json.Document

variable {α : Type} {P : α → Prop} {item? : Document → Option α} {encode : α → Json}

/-- Whatever is read has a property. -/
def Gives (P : α → Prop) (item? : Document → Option α) : Prop :=
  ∀ d a, item? d = some a → P a

theorem Gives.required? (hitem : Gives P item?) {value : Option Document} {a : α}
    (hvalue : Document.required? item? value = some a) : P a := by
  cases value with
  | none => cases hvalue
  | some d => exact hitem d a hvalue

theorem Gives.defaulted? (hitem : Gives P item?) {default : α} (hdefault : P default)
    {value : Option Document} {a : α}
    (hvalue : Document.defaulted? default item? value = some a) : P a := by
  cases value with
  | none =>
    cases hvalue
    exact hdefault
  | some d => exact hitem d a hvalue

theorem Gives.list? (hitem : Gives P item?) :
    Gives (fun as => ∀ a ∈ as, P a) (Document.list? item?) := by
  intro d as hd
  cases d with
  | array items =>
    rw [Document.list?, mapM_eq_some_iff] at hd
    intro a ha
    obtain ⟨d, _, hread⟩ := exists_of_forall₂_of_mem hd ha
    exact hitem d a hread
  | null | bool | number | string | object | unreadable => cases hd

theorem Gives.table? (hitem : Gives P item?) :
    Gives (fun table => (table.map (·.1)).Nodup ∧ ∀ e ∈ table, P e.2) (Document.table? item?) := by
  intro d table hd
  obtain ⟨fields, entries, rfl, hentries, rfl⟩ := table?_eq_some_iff.mp hd
  refine ⟨nodup_keys_ofEntries entries, fun e he => ?_⟩
  obtain ⟨f, _, _, hread⟩ := exists_of_forall₂_of_mem hentries (mem_of_mem_ofEntries he)
  exact hitem f.2 e.2 hread

private theorem optional?_of_ne_null {d : Document} (hd : d ≠ .null) :
    optional? item? d = (item? d).map some := by
  cases d with
  | null => exact absurd rfl hd
  | _ => rfl

theorem Gives.optional? (hitem : ∀ d a, d ≠ .null → item? d = some a → P a) :
    Gives (fun x => ∀ a ∈ x, P a) (Document.optional? item?) := by
  intro d x hd a ha
  by_cases hnull : d = .null
  · subst hnull
    cases hd
    cases ha
  · rw [optional?_of_ne_null hnull, Option.map_eq_some_iff] at hd
    obtain ⟨b, hread, rfl⟩ := hd
    cases ha
    exact hitem d _ hnull hread

/-- A missing part is written as null, so nothing else may be. -/
theorem optional?_ofValue {x : Option α}
    (hx : ∀ a ∈ x, encode a ≠ .null ∧ item? (ofValue (encode a)) = some a) :
    optional? item? (ofValue (orNull (x.map encode))) = some x := by
  cases x with
  | none => rfl
  | some a =>
    obtain ⟨hnull, hread⟩ := hx a rfl
    have hne : ofValue (encode a) ≠ .null := by
      intro heq
      cases hencode : encode a with
      | null => exact hnull hencode
      | _ => rw [hencode] at heq; cases heq
    rw [Option.map_some, orNull, optional?_of_ne_null hne, hread, Option.map_some]

theorem gives_index : Gives (· < 0x100000000) index? := by
  intro d i hd
  unfold index? at hd
  split at hd
  · split at hd
    · cases hd
      omega
    · cases hd
  · cases hd

private theorem exists_nat_eq {i : Nat} (hi : i < 0x100000000) :
    ∃ m : Integer, m.val = i ∧ Json.nat i = .number (.integer m) := by
  have hint : Integer.ofInt? i = some ⟨i, by omega, by omega⟩ := by
    rw [Integer.ofInt?, dif_pos]
    omega
  refine ⟨⟨i, by omega, by omega⟩, rfl, ?_⟩
  rw [Json.nat, hint]
  rfl

theorem index?_ofValue {i : Nat} (hi : i < 0x100000000) :
    Json.nat i ≠ .null ∧ index? (ofValue (Json.nat i)) = some i := by
  obtain ⟨m, hm, hnat⟩ := exists_nat_eq hi
  have hrange : 0 ≤ m.val ∧ m.val < 0x100000000 := by omega
  rw [hnat]
  refine ⟨nofun, ?_⟩
  rw [ofValue, index?, if_pos hrange, hm, Int.toNat_natCast]

private theorem values?_eq_mapM (depth : Nat) (items : List Document) :
    values? depth items = items.mapM (value? depth) := by
  induction items with
  | nil => rfl
  | cons d items ih => rw [values?, List.mapM_cons, ih]

theorem entries?_eq_some_iff {depth : Nat} {fields : List (String × Document)}
    {entries : List (String × Json)} :
    entries? depth fields = some entries ↔
      List.Forall₂ (fun f e => f.1 = e.1 ∧ value? depth f.2 = some e.2) fields entries := by
  induction fields generalizing entries with
  | nil => simp [entries?, eq_comm]
  | cons f fields ih =>
    rw [entries?, List.forall₂_cons_left_iff]
    simp only [Option.bind_eq_bind, Option.bind_eq_some_iff, Option.pure_def, Option.some.injEq, ih]
    constructor
    · rintro ⟨j, hj, entries, hentries, rfl⟩
      exact ⟨(f.1, j), entries, ⟨rfl, hj⟩, hentries, rfl⟩
    · rintro ⟨⟨k, j⟩, entries, ⟨rfl, hj⟩, hentries, rfl⟩
      exact ⟨j, hj, entries, hentries, rfl⟩

private theorem exists_of_value?_array {depth : Nat} {items : List Document} {j : Json}
    (hread : value? depth (.array items) = some j) :
    depth ≠ 0 ∧ ∃ js, values? (depth - 1) items = some js ∧ .array js = j := by
  rw [value?] at hread
  split at hread
  · cases hread
  · next hdepth => exact ⟨hdepth, by simpa [Option.bind_eq_some_iff] using hread⟩

private theorem exists_of_value?_object {depth : Nat} {fields : List (String × Document)} {j : Json}
    (hread : value? depth (.object fields) = some j) :
    depth ≠ 0 ∧ ∃ entries, entries? (depth - 1) fields = some entries ∧
      .object (ofEntries entries) = j := by
  rw [value?] at hread
  split at hread
  · cases hread
  · next hdepth => exact ⟨hdepth, by simpa [Option.bind_eq_some_iff] using hread⟩

/-- The cases of an induction over the values that reading gives. -/
structure ReadCases (P : Nat → Json → Prop) : Prop where
  null (depth : Nat) : P depth .null
  bool (depth : Nat) (b : Bool) : P depth (.bool b)
  number (depth : Nat) (n : Number) : P depth (.number n)
  string (depth : Nat) (s : String) : P depth (.string s)
  array (depth : Nat) (js : List Json) (hjs : ∀ j ∈ js, P depth j) : P (depth + 1) (.array js)
  object (depth : Nat) (entries : List (String × Json)) (hentries : ∀ e ∈ entries, P depth e.2) :
    P (depth + 1) (.object (ofEntries entries))

mutual

theorem ReadCases.value {P : Nat → Json → Prop} (h : ReadCases P) (d : Document) {depth : Nat}
    {j : Json} (hread : value? depth d = some j) : P depth j := by
  match d with
  | .null =>
    cases hread
    exact h.null depth
  | .bool b =>
    cases hread
    exact h.bool depth b
  | .number n =>
    cases hread
    exact h.number depth n
  | .string s =>
    cases hread
    exact h.string depth s
  | .array items =>
    obtain ⟨hdepth, js, hitems, rfl⟩ := exists_of_value?_array hread
    rw [← Nat.succ_pred_eq_of_ne_zero hdepth]
    exact h.array (depth - 1) js (h.values items hitems)
  | .object fields =>
    obtain ⟨hdepth, entries, hfields, rfl⟩ := exists_of_value?_object hread
    rw [← Nat.succ_pred_eq_of_ne_zero hdepth]
    exact h.object (depth - 1) entries (h.entries fields hfields)
  | .unreadable => cases hread

theorem ReadCases.values {P : Nat → Json → Prop} (h : ReadCases P) (items : List Document)
    {depth : Nat} {js : List Json} (hitems : values? depth items = some js) :
    ∀ j ∈ js, P depth j := by
  match items with
  | [] => cases hitems; exact nofun
  | d :: items =>
    obtain ⟨j, hd, js', hrest, rfl⟩ : ∃ j, value? depth d = some j ∧
        ∃ js', values? depth items = some js' ∧ j :: js' = js := by
      simpa [values?, Option.bind_eq_some_iff] using hitems
    exact List.forall_mem_cons.mpr ⟨h.value d hd, h.values items hrest⟩

theorem ReadCases.entries {P : Nat → Json → Prop} (h : ReadCases P)
    (fields : List (String × Document)) {depth : Nat} {entries : List (String × Json)}
    (hfields : entries? depth fields = some entries) : ∀ e ∈ entries, P depth e.2 := by
  match fields with
  | [] => cases hfields; exact nofun
  | (k, d) :: fields =>
    obtain ⟨j, hd, entries', hrest, rfl⟩ : ∃ j, value? depth d = some j ∧
        ∃ entries', entries? depth fields = some entries' ∧ (k, j) :: entries' = entries := by
      simpa [entries?, Option.bind_eq_some_iff] using hfields
    exact List.forall_mem_cons.mpr ⟨h.value d hd, h.entries fields hrest⟩

end

private theorem readCases_ofValue : ReadCases fun depth j => value? depth (ofValue j) = some j where
  null _ := rfl
  bool _ _ := rfl
  number _ _ := rfl
  string _ _ := rfl
  array depth js hjs := by
    have hagain : values? depth (ofValues js) = some js := by
      rw [values?_eq_mapM, ofValues_eq_map, mapM_eq_some_iff, List.forall₂_map_left_iff,
        List.forall₂_same]
      exact hjs
    rw [ofValue, value?, if_neg (Nat.succ_ne_zero depth), Nat.add_sub_cancel, hagain]
    rfl
  object depth entries hentries := by
    have hagain : entries? depth (ofFields (ofEntries entries)) = some (ofEntries entries) := by
      rw [entries?_eq_some_iff, ofFields_eq_map, List.forall₂_map_left_iff, List.forall₂_same]
      exact fun e he => ⟨rfl, hentries e (mem_of_mem_ofEntries he)⟩
    -- The first reading has merged repeated keys, so that the second one finds none.
    have hkeys := ofEntries_eq_self (nodup_keys_ofEntries entries)
    rw [ofValue, value?, if_neg (Nat.succ_ne_zero depth), Nat.add_sub_cancel, hagain]
    exact congrArg (fun fields => some (Json.object fields)) hkeys

/-- The value of a document is read again from the document that it is written as. -/
theorem value?_ofValue (d : Document) {depth : Nat} {j : Json} (hread : value? depth d = some j) :
    value? depth (ofValue j) = some j :=
  readCases_ofValue.value d hread

/-- A value that can be told from a missing one and that reading gives again. -/
def Storable (depth : Nat) (j : Json) : Prop :=
  j ≠ .null ∧ value? depth (ofValue j) = some j

theorem gives_optional_value (depth : Nat) :
    Gives (fun x => ∀ j ∈ x, Storable depth j) (optional? (value? depth)) := by
  apply Gives.optional?
  intro d j hnull hread
  refine ⟨?_, value?_ofValue d hread⟩
  rintro rfl
  cases d with
  | null => exact hnull rfl
  | bool | number | string | unreadable => cases hread
  | array items =>
    obtain ⟨-, js, -, hj⟩ := exists_of_value?_array hread
    cases hj
  | object fields =>
    obtain ⟨-, entries, -, hj⟩ := exists_of_value?_object hread
    cases hj

end Schematic.Json.Document
