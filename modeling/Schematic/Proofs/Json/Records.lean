import Schematic.Proofs.Json.Reading
import Mathlib.Data.List.Induction

namespace Schematic.Json

variable {α : Type}

private theorem put_of_notMem {entries : List (String × α)} {key : String}
    (hkey : key ∉ entries.map (·.1)) (a : α) : put entries key a = entries ++ [(key, a)] := by
  have hany : entries.any (·.1 == key) = false := by
    rw [List.any_eq_false]
    intro e he heq
    exact hkey (List.mem_map.mpr ⟨e, he, beq_iff_eq.mp heq⟩)
  rw [put, hany]
  rfl

/-- A key that is known keeps its place, and so do the others. -/
theorem keys_put_of_mem {entries : List (String × α)} {key : String}
    (hkey : key ∈ entries.map (·.1)) (a : α) :
    (put entries key a).map (·.1) = entries.map (·.1) := by
  obtain ⟨e, he, heq⟩ := List.mem_map.mp hkey
  have hany : entries.any (·.1 == key) = true :=
    List.any_eq_true.mpr ⟨e, he, beq_iff_eq.mpr heq⟩
  rw [put, if_pos hany, List.map_map]
  apply List.map_congr_left
  intro e' _
  by_cases hsame : e'.1 = key
  · simp [hsame]
  · simp [hsame]

private theorem ofEntries_append_singleton (entries : List (String × α)) (e : String × α) :
    ofEntries (entries ++ [e]) = put (ofEntries entries) e.1 e.2 := by
  rw [ofEntries, List.foldl_append]
  rfl

/-- The keys are in the order of their first places. -/
theorem keys_ofEntries (entries : List (String × α)) :
    (ofEntries entries).map (·.1) = (entries.map (·.1)).eraseDups := by
  -- Each entry meets an association list of those before it, so the induction is from the end.
  induction entries using List.reverseRecOn with
  | nil => rfl
  | append_singleton entries e ih =>
    rw [ofEntries_append_singleton, List.map_append, List.map_singleton, List.eraseDups_append]
    by_cases hkey : e.1 ∈ entries.map (·.1)
    · have hknown : e.1 ∈ (ofEntries entries).map (·.1) := by rwa [ih, List.mem_eraseDups]
      rw [keys_put_of_mem hknown, ih]
      simp [List.removeAll, hkey]
    · have hnew : e.1 ∉ (ofEntries entries).map (·.1) := by rwa [ih, List.mem_eraseDups]
      rw [put_of_notMem hnew, List.map_append, ih]
      simp [List.removeAll, hkey, List.eraseDups_cons]

theorem nodup_keys_ofEntries (entries : List (String × α)) :
    ((ofEntries entries).map (·.1)).Nodup := by
  rw [keys_ofEntries]
  exact nodup_eraseDups _

/-- Entries with distinct keys are an association list already. -/
theorem ofEntries_eq_self {entries : List (String × α)} (hkeys : (entries.map (·.1)).Nodup) :
    ofEntries entries = entries := by
  induction entries using List.reverseRecOn with
  | nil => rfl
  | append_singleton entries e ih =>
    rw [List.map_append, List.nodup_append] at hkeys
    obtain ⟨hbefore, -, hnew⟩ := hkeys
    have hkey : e.1 ∉ entries.map (·.1) := fun hmem => hnew _ hmem _ List.mem_cons_self rfl
    rw [ofEntries_append_singleton, ih hbefore, put_of_notMem hkey]

private theorem eq_or_mem_of_mem_put {entries : List (String × α)} {key : String} {a : α}
    {e : String × α} (he : e ∈ put entries key a) : e = (key, a) ∨ e ∈ entries ∧ e.1 ≠ key := by
  unfold put at he
  split at he
  · obtain ⟨e', he', rfl⟩ := List.mem_map.mp he
    by_cases hkey : e'.1 = key
    · exact .inl (by simp [hkey])
    · exact .inr (by simpa [hkey] using he')
  · next hnone =>
    rw [List.mem_append, List.mem_singleton] at he
    refine he.symm.imp_right fun he => ⟨he, fun hkey => hnone ?_⟩
    exact List.any_eq_true.mpr ⟨e, he, beq_iff_eq.mpr hkey⟩

/-- A key has its last value. -/
theorem lookup_reverse_of_mem_ofEntries {entries : List (String × α)} {e : String × α}
    (he : e ∈ ofEntries entries) : entries.reverse.lookup e.1 = some e.2 := by
  induction entries using List.reverseRecOn with
  | nil => cases he
  | append_singleton entries last ih =>
    rw [ofEntries_append_singleton] at he
    rw [List.reverse_append, List.reverse_singleton, List.singleton_append]
    obtain rfl | ⟨he, hkey⟩ := eq_or_mem_of_mem_put he
    · exact List.lookup_cons_self
    · rw [lookup_cons_of_ne hkey, ih he]

theorem mem_of_mem_ofEntries {entries : List (String × α)} {e : String × α}
    (he : e ∈ ofEntries entries) : e ∈ entries := by
  obtain ⟨before, after, heq, -⟩ := List.lookup_eq_some_iff.mp (lookup_reverse_of_mem_ofEntries he)
  rw [← List.mem_reverse, heq]
  exact List.mem_append_right before List.mem_cons_self

namespace Document

/-- The fields of a record that are there. -/
def present (names : List String) (values : List (Option Document)) : List (String × Document) :=
  (names.zip values).filterMap fun f => f.2.map (f.1, ·)

private theorem present_sublist (names : List String) (values : List (Option Document)) :
    ((present names values).map (·.1)).Sublist names := by
  induction names generalizing values with
  | nil => exact .slnil
  | cons name names ih =>
    cases values with
    | nil => exact List.nil_sublist _
    | cons value values =>
      cases value with
      | none => exact (ih values).cons name
      | some d => exact (ih values).cons_cons name

private theorem lookup_present {names : List String} (hnames : names.Nodup)
    {values : List (Option Document)} (hlength : values.length = names.length) :
    (names.map fun name => (present names values).lookup name) = values := by
  induction names generalizing values with
  | nil => exact (List.eq_nil_of_length_eq_zero hlength).symm
  | cons name names ih =>
    obtain ⟨value, values, rfl⟩ := List.exists_cons_of_length_eq_add_one hlength
    obtain ⟨hnew, hnames⟩ := List.nodup_cons.mp hnames
    have hrest := ih hnames (Nat.succ.inj hlength)
    have habsent : (present names values).lookup name = none := by
      rw [List.lookup_eq_none_iff]
      intro f hf
      have hmem := (present_sublist names values).subset (List.mem_map_of_mem hf)
      exact bne_iff_ne.mpr fun heq => hnew (heq ▸ hmem)
    cases value with
    | none => exact congrArg₂ List.cons habsent hrest
    | some d =>
      refine congrArg₂ List.cons List.lookup_cons_self (Eq.trans ?_ hrest)
      apply List.map_congr_left
      intro name' hname'
      have hother : name' ≠ name := fun heq => hnew (heq ▸ hname')
      exact lookup_cons_of_ne hother d (present names values)

/-- An object with distinct keys is a record of any of them. -/
theorem record?_object {names : List String} {fields : List (String × Document)}
    (hkeys : (fields.map (·.1)).Nodup) :
    record? names (.object fields) = some (names.map fun name => fields.lookup name) := by
  rw [record?, if_pos]
  rw [List.all_eq_true]
  intro name _
  have hcount := List.nodup_iff_count_le_one.mp hkeys name
  rw [List.count, List.countP_map] at hcount
  exact decide_eq_true hcount

/-- An object with just the fields of a record that are there is read to them. -/
theorem record?_present {names : List String} {values : List (Option Document)} {d : Document}
    (hnames : names.Nodup) (hlength : values.length = names.length)
    (hd : d = .object (present names values)) : d.record? names = some values := by
  rw [hd, record?_object (hnames.sublist (present_sublist names values)),
    lookup_present hnames hlength]

variable {item? : Document → Option α} {encode : α → Json}

theorem list?_ofValue (as : List α) (hitem : ∀ a ∈ as, item? (ofValue (encode a)) = some a) :
    list? item? (ofValue (.array (as.map encode))) = some as := by
  rw [ofValue, list?, ofValues_eq_map, List.map_map, mapM_eq_some_iff,
    List.forall₂_map_left_iff, List.forall₂_same]
  exact hitem

theorem strings?_ofValue (xs : List String) : strings? (ofValue (Json.strings xs)) = some xs :=
  list?_ofValue xs fun _ _ => rfl

/-- A table has the entries of an object, each with its own key. -/
theorem table?_eq_some_iff {d : Document} {table : List (String × α)} :
    table? item? d = some table ↔ ∃ fields entries, d = .object fields ∧
      List.Forall₂ (fun f e => f.1 = e.1 ∧ item? f.2 = some e.2) fields entries ∧
      ofEntries entries = table := by
  cases d with
  | object fields =>
    have hentries (entries : List (String × α)) :
        (fields.mapM fun f => do return (f.1, ← item? f.2)) = some entries ↔
          List.Forall₂ (fun f e => f.1 = e.1 ∧ item? f.2 = some e.2) fields entries := by
      have hentry (f : String × Document) (e : String × α) :
          (do return (f.1, ← item? f.2) : Option (String × α)) = some e ↔
            f.1 = e.1 ∧ item? f.2 = some e.2 := by
        cases item? f.2 <;> simp [Prod.ext_iff]
      simp only [mapM_eq_some_iff, hentry]
    change (fields.mapM (fun f => do return (f.1, ← item? f.2)) >>= fun entries =>
      some (ofEntries entries)) = some table ↔ _
    simp only [Option.bind_eq_bind, Option.bind_eq_some_iff, Option.some.injEq]
    constructor
    · rintro ⟨entries, hall, rfl⟩
      exact ⟨fields, entries, rfl, (hentries entries).mp hall, rfl⟩
    · rintro ⟨_, entries, hobject, hall, rfl⟩
      cases hobject
      exact ⟨entries, (hentries entries).mpr hall, rfl⟩
  | null | bool | number | string | array | unreadable => simp [table?]

theorem table?_ofValue {entries : List (String × α)} (hkeys : (entries.map (·.1)).Nodup)
    (hitem : ∀ e ∈ entries, item? (ofValue (encode e.2)) = some e.2) :
    table? item? (ofValue (.object (entries.map fun e => (e.1, encode e.2)))) = some entries := by
  refine table?_eq_some_iff.mpr ⟨_, entries, rfl, ?_, ofEntries_eq_self hkeys⟩
  rw [ofFields_eq_map, List.map_map, List.forall₂_map_left_iff, List.forall₂_same]
  exact fun e he => ⟨rfl, hitem e he⟩

/-- A table follows its object: each key is at its first place, with what its last value is read
to. -/
structure Keeps (item? : Document → Option α) (fields : List (String × Document))
    (table : List (String × α)) : Prop where
  keys : table.map (·.1) = (fields.map (·.1)).eraseDups
  values : ∀ e ∈ table, (fields.reverse.lookup e.1 >>= item?) = some e.2

private theorem lookup_bind_of_forall₂ {fields : List (String × Document)}
    {entries : List (String × α)}
    (hentries : List.Forall₂ (fun f e => f.1 = e.1 ∧ item? f.2 = some e.2) fields entries)
    (key : String) : (fields.lookup key >>= item?) = entries.lookup key := by
  induction hentries with
  | nil => rfl
  | @cons f e fields entries hentry _ ih =>
    obtain ⟨k, d⟩ := f
    obtain ⟨k', a⟩ := e
    obtain ⟨rfl, hd⟩ := hentry
    by_cases hkey : key = k
    · subst hkey
      rw [List.lookup_cons_self, List.lookup_cons_self]
      exact hd
    · rw [lookup_cons_of_ne hkey, lookup_cons_of_ne hkey, ih]

theorem keeps_of_table? {d : Document} {table : List (String × α)}
    (hd : table? item? d = some table) :
    ∃ fields, d = .object fields ∧ Keeps item? fields table := by
  obtain ⟨fields, entries, rfl, hentries, rfl⟩ := table?_eq_some_iff.mp hd
  have hkeys : fields.map (·.1) = entries.map (·.1) := by
    rw [← List.forall₂_eq_eq_eq, List.forall₂_map_left_iff, List.forall₂_map_right_iff]
    exact hentries.imp fun f e hentry => hentry.1
  refine ⟨fields, rfl, ?_, fun e he => ?_⟩
  · rw [keys_ofEntries, hkeys]
  · rw [lookup_bind_of_forall₂ (List.rel_reverse hentries)]
    exact lookup_reverse_of_mem_ofEntries he

end Document

end Schematic.Json
