import Schematic.Json.Document
import Schematic.Proofs.Sequence
import Mathlib.Data.List.Count
import Mathlib.Logic.Relation

namespace Schematic.Json

/-- Which parts of a document are lists, tables and records. Nothing is said of a leaf. -/
inductive Schema where
  | leaf
  | list (item : Schema)
  | table (entry : Schema)
  | record (fields : List (String × Schema))

namespace Document

/-- One edit of a record, somewhere in a document. -/
inductive Edit : Schema → Document → Document → Prop where
  /-- A field of another name is put in. -/
  | insert {fields : List (String × Schema)} {name : String} (hname : name ∉ fields.map (·.1))
      (before after : List (String × Document)) (d : Document) :
      Edit (.record fields) (.object (before ++ after)) (.object (before ++ (name, d) :: after))
  /-- The fields are put in another order. -/
  | permute {fields : List (String × Schema)} {entries entries' : List (String × Document)}
      (hperm : entries.Perm entries') : Edit (.record fields) (.object entries) (.object entries')
  | field {fields : List (String × Schema)} {name : String} {s : Schema} {d d' : Document}
      (hfield : (name, s) ∈ fields) (before after : List (String × Document))
      (hedit : Edit s d d') :
      Edit (.record fields) (.object (before ++ (name, d) :: after))
        (.object (before ++ (name, d') :: after))
  | item {s : Schema} {d d' : Document} (before after : List Document) (hedit : Edit s d d') :
      Edit (.list s) (.array (before ++ d :: after)) (.array (before ++ d' :: after))
  | entry {s : Schema} {d d' : Document} (key : String) (before after : List (String × Document))
      (hedit : Edit s d d') :
      Edit (.table s) (.object (before ++ (key, d) :: after))
        (.object (before ++ (key, d') :: after))

/-- What an edit of a record does to one of its fields. -/
inductive FieldEdit (s : Schema) : Option Document → Option Document → Prop where
  | same (value : Option Document) : FieldEdit s value value
  | inside {d d' : Document} (hedit : Edit s d d') : FieldEdit s (some d) (some d')

theorem FieldEdit.eq_of_leaf {value value' : Option Document}
    (hvalue : FieldEdit .leaf value value') : value' = value := by
  cases hvalue with
  | same => rfl
  | inside hedit => cases hedit

/-- A name that occurs at most once is found wherever it stands. -/
theorem lookup_eq_of_perm {entries entries' : List (String × Document)}
    (hperm : entries.Perm entries') {name : String}
    (hcount : entries.countP (·.1 == name) ≤ 1) : entries'.lookup name = entries.lookup name := by
  induction hperm with
  | nil => rfl
  | @cons e entries entries' _ ih =>
    obtain ⟨key, d⟩ := e
    have hrest : entries.countP (·.1 == name) ≤ 1 := by
      rw [List.countP_cons] at hcount
      omega
    rw [List.lookup_cons, List.lookup_cons, ih hrest]
  | swap e e' entries =>
    obtain ⟨key, d⟩ := e
    obtain ⟨key', d'⟩ := e'
    rw [List.countP_cons, List.countP_cons] at hcount
    by_cases hkey : name = key
    · subst hkey
      have hother : (name == key') = false := by
        rw [beq_eq_false_iff_ne]
        rintro rfl
        simp at hcount
      simp [List.lookup_cons, hother]
    · have hother : (name == key) = false := beq_false_of_ne hkey
      simp [List.lookup_cons, hother]
  | trans hfirst _ ih ih' =>
    rw [ih' (hfirst.countP_eq _ ▸ hcount), ih hcount]

/-- An edit of a record leaves each of its names as often as it was; a name that is there at most
once has its old value, or that value edited. -/
theorem Edit.fieldEdit {fields : List (String × Schema)} (hnames : (fields.map (·.1)).Nodup)
    {entries entries' : List (String × Document)}
    (hedit : Edit (.record fields) (.object entries) (.object entries'))
    {name : String} {s : Schema} (hmem : (name, s) ∈ fields) :
    entries'.countP (·.1 == name) = entries.countP (·.1 == name) ∧
      (entries.countP (·.1 == name) ≤ 1 →
        FieldEdit s (entries.lookup name) (entries'.lookup name)) := by
  cases hedit with
  | @insert _ other hother before after d =>
    have hne : name ≠ other := fun heq => hother (heq ▸ List.mem_map_of_mem hmem)
    have hlookup : (before ++ (other, d) :: after).lookup name = (before ++ after).lookup name := by
      rw [List.lookup_append, List.lookup_append, lookup_cons_of_ne hne]
    refine ⟨?_, fun _ => ?_⟩
    · rw [List.countP_append, List.countP_cons_of_neg (by simpa using hne.symm),
        ← List.countP_append]
    · rw [hlookup]
      exact .same _
  | permute hperm =>
    refine ⟨(hperm.countP_eq _).symm, fun hcount => ?_⟩
    rw [lookup_eq_of_perm hperm hcount]
    exact .same _
  | @field _ other s' d d' hfield before after hedit =>
    refine ⟨by simp [List.countP_append, List.countP_cons], fun hcount => ?_⟩
    rw [List.lookup_append, List.lookup_append]
    by_cases hname : name = other
    · subst hname
      cases List.inj_on_of_nodup_map hnames hmem hfield rfl
      -- A field of the same name before this one would be the second, so this one is found.
      have hbefore : before.lookup name = none := by
        rw [List.countP_append, List.countP_cons_of_pos (by simp)] at hcount
        have hnone : before.countP (·.1 == name) = 0 := by omega
        rw [List.lookup_eq_none_iff]
        intro e he
        exact bne_iff_ne.mpr fun heq => List.countP_eq_zero.mp hnone e he (beq_iff_eq.mpr heq.symm)
      rw [hbefore, Option.none_or, Option.none_or, List.lookup_cons_self, List.lookup_cons_self]
      exact .inside hedit
    · rw [lookup_cons_of_ne hname, lookup_cons_of_ne hname]
      exact .same _

variable {α : Type} {s : Schema} {item? : Document → Option α}

/-- Reading gives the same before and after each edit. -/
def Ignores (s : Schema) (item? : Document → Option α) : Prop :=
  ∀ d d', Edit s d d' → item? d' = item? d

/-- What ignores each edit ignores any number of them, made or taken back. -/
theorem Ignores.eqvGen (hitem : Ignores s item?) {d d' : Document}
    (hedits : Relation.EqvGen (Edit s) d d') : item? d' = item? d := by
  induction hedits with
  | rel d d' hedit => exact hitem d d' hedit
  | refl => rfl
  | symm d d' _ ih => exact ih.symm
  | trans d d' d'' _ _ ih ih' => exact ih'.trans ih

theorem Ignores.required? (hitem : Ignores s item?) {value value' : Option Document}
    (hvalue : FieldEdit s value value') :
    Document.required? item? value' = Document.required? item? value := by
  cases hvalue with
  | same => rfl
  | inside hedit => exact hitem _ _ hedit

theorem Ignores.defaulted? (hitem : Ignores s item?) (default : α) {value value' : Option Document}
    (hvalue : FieldEdit s value value') :
    Document.defaulted? default item? value' = Document.defaulted? default item? value := by
  cases hvalue with
  | same => rfl
  | inside hedit => exact hitem _ _ hedit

theorem Ignores.list? (hitem : Ignores s item?) : Ignores (.list s) (Document.list? item?) := by
  intro d d' hedit
  cases hedit with
  | item before after hedit =>
    simp only [Document.list?, List.mapM_append, List.mapM_cons, hitem _ _ hedit]

theorem Ignores.table? (hitem : Ignores s item?) : Ignores (.table s) (Document.table? item?) := by
  intro d d' hedit
  cases hedit with
  | entry key before after hedit =>
    simp only [Document.table?, List.mapM_append, List.mapM_cons, hitem _ _ hedit]

/-- A record that is built from its fields ignores edits, if building gives the same whenever each
field is as it was or is edited inside. -/
theorem ignores_record {fields : List (String × Schema)} (hnames : (fields.map (·.1)).Nodup)
    {build : List (Option Document) → Option α}
    (hbuild : ∀ value value' : String → Option Document,
      (∀ f ∈ fields, FieldEdit f.2 (value f.1) (value' f.1)) →
        build ((fields.map (·.1)).map value') = build ((fields.map (·.1)).map value)) :
    Ignores (.record fields) fun d => d.record? (fields.map (·.1)) >>= build := by
  intro d d' hedit
  obtain ⟨entries, entries', rfl, rfl⟩ :
      ∃ entries entries', d = .object entries ∧ d' = .object entries' := by
    cases hedit with
    | insert | permute | field => exact ⟨_, _, rfl, rfl⟩
  have hcounts : (fields.map (·.1)).all (fun name => entries'.countP (·.1 == name) ≤ 1) =
      (fields.map (·.1)).all (fun name => entries.countP (·.1 == name) ≤ 1) := by
    rw [Bool.eq_iff_iff, List.all_eq_true, List.all_eq_true, List.forall_mem_map,
      List.forall_mem_map]
    exact forall₂_congr fun f hf => by rw [(hedit.fieldEdit hnames hf).1]
  simp only [record?, hcounts]
  split
  · next hcount =>
    rw [List.all_eq_true] at hcount
    apply hbuild
    intro f hf
    exact (hedit.fieldEdit hnames hf).2
      (of_decide_eq_true (hcount f.1 (List.mem_map_of_mem hf)))
  · rfl

/-- Where every field of a record is a leaf, whatever is built from them ignores edits. -/
theorem ignores_leaves {names : List String} (hnames : names.Nodup)
    {build : List (Option Document) → Option α} :
    Ignores (.record (names.map (·, .leaf))) fun d => d.record? names >>= build := by
  have hfst : (names.map (·, Schema.leaf)).map (·.1) = names := by
    rw [List.map_map]
    exact List.map_id names
  have hignores : Ignores (.record (names.map (·, .leaf)))
      fun d => d.record? ((names.map (·, Schema.leaf)).map (·.1)) >>= build := by
    apply ignores_record
    · rwa [hfst]
    · intro value value' hvalues
      rw [hfst]
      refine congrArg build (List.map_congr_left fun name hname => ?_)
      exact (hvalues (name, .leaf) (List.mem_map_of_mem hname)).eq_of_leaf
  rwa [hfst] at hignores

end Document

end Schematic.Json
