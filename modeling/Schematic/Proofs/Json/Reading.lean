import Schematic.Json.Basic
import Schematic.Json.Reader
import Schematic.Proofs.Json.Spelling
import Schematic.Proofs.Sequence

namespace Schematic.Json

mutual

def tokens : Json → List Token
  | null => [.null]
  | bool b => [.bool b]
  | number n => [.number (some n)]
  | string s => [.string (some s)]
  | array [] => [.openBracket, .closeBracket]
  | array (x :: xs) => .openBracket :: (x.tokens ++ itemsTokens xs ++ [.closeBracket])
  | object [] => [.openBrace, .closeBrace]
  | object ((k, x) :: rest) =>
    .openBrace :: .string (some k) :: .colon ::
      (x.tokens ++ fieldsTokens rest ++ [.closeBrace])

def itemsTokens : List Json → List Token
  | [] => []
  | x :: xs => .comma :: (x.tokens ++ itemsTokens xs)

def fieldsTokens : List (String × Json) → List Token
  | [] => []
  | (k, x) :: rest => .comma :: .string (some k) :: .colon :: (x.tokens ++ fieldsTokens rest)

end

mutual

/-- There is no number in the value. -/
def Numberless : Json → Prop
  | number _ => False
  | array items => NumberlessItems items
  | object fields => NumberlessFields fields
  | _ => True

def NumberlessItems : List Json → Prop
  | [] => True
  | x :: xs => x.Numberless ∧ NumberlessItems xs

def NumberlessFields : List (String × Json) → Prop
  | [] => True
  | (_, x) :: rest => x.Numberless ∧ NumberlessFields rest

end

theorem numberlessItems_iff {items : List Json} :
    NumberlessItems items ↔ ∀ x ∈ items, x.Numberless := by
  induction items with
  | nil => exact iff_of_true trivial nofun
  | cons x xs ih => rw [NumberlessItems, ih, List.forall_mem_cons]

theorem numberless_array {α : Type} {encode : α → Json} {as : List α}
    (hencode : ∀ a ∈ as, (encode a).Numberless) : (array (as.map encode)).Numberless :=
  numberlessItems_iff.mpr (List.forall_mem_map.mpr hencode)

theorem numberless_strings (xs : List String) : (strings xs).Numberless :=
  numberless_array fun _ _ => trivial

/-- The gaps of a layout hold nothing but blanks. -/
structure Layout.Blank (layout : Layout) : Prop where
  gap : ∀ level, ∀ c ∈ layout.gap level, Token.isSpace c = true
  afterColon : ∀ c ∈ layout.afterColon, Token.isSpace c = true

theorem Layout.blank_dense : Layout.dense.Blank where
  gap _ := nofun
  afterColon := nofun

theorem Layout.blank_indented : Layout.indented.Blank where
  gap level c hc := by
    rcases List.mem_cons.mp hc with rfl | hc
    · rfl
    · rw [List.eq_of_mem_replicate hc]
      rfl
  afterColon c hc := by
    rw [List.mem_singleton.mp hc]
    rfl

namespace Token

variable {cs blanks : List Char} {ts : List Token}

theorem Spells.append_blanks (hblanks : ∀ c ∈ blanks, isSpace c = true) (hrest : Spells cs ts) :
    Spells (blanks ++ cs) ts := by
  induction blanks with
  | nil => exact hrest
  | cons c blanks ih =>
    obtain ⟨hc, hblanks⟩ := List.forall_mem_cons.mp hblanks
    exact .space hc (ih hblanks)

theorem Stops.append_blanks (hblanks : ∀ c ∈ blanks, isSpace c = true) (hstops : Stops cs) :
    Stops (blanks ++ cs) := by
  cases blanks with
  | nil => exact hstops
  | cons c blanks =>
    intro c' hc'
    cases hc'
    exact isWordChar_space (hblanks c List.mem_cons_self)

private theorem stops_mark {c : Char} (hc : isWordChar c = false) : Stops (c :: cs) := by
  intro c' hc'
  cases hc'
  exact hc

end Token

open Token (Spells Stops stops_mark)

section

variable {layout : Layout} {cs : List Char} {ts : List Token}

private theorem stops_itemsChars (hstops : Stops cs) (level : Nat) (items : List Json) :
    Stops (itemsChars layout level items ++ cs) := by
  cases items with
  | nil => exact hstops
  | cons x xs => exact stops_mark rfl

private theorem stops_fieldsChars (hstops : Stops cs) (level : Nat)
    (fields : List (String × Json)) :
    Stops (fieldsChars layout level fields ++ cs) := by
  cases fields with
  | nil => exact hstops
  | cons f fields => exact stops_mark rfl

mutual

/-- The text of a value spells its tokens, whatever follows it. -/
theorem spells_chars (hblank : layout.Blank) (j : Json) (hj : j.Numberless) (level : Nat)
    {cs : List Char} {ts : List Token} (hstops : Stops cs) (hrest : Spells cs ts) :
    Spells (j.chars layout level ++ cs) (j.tokens ++ ts) := by
  match j, hj with
  | null, _ =>
    rw [chars, tokens]
    exact .word (List.all_eq_true.mp rfl) rfl hstops hrest
  | bool true, _ =>
    rw [chars, tokens]
    exact .word (List.all_eq_true.mp rfl) rfl hstops hrest
  | bool false, _ =>
    rw [chars, tokens]
    exact .word (List.all_eq_true.mp rfl) rfl hstops hrest
  | number n, hj => exact False.elim hj
  | string s, _ => exact .quoted s hrest
  | array [], _ => exact .mark rfl (.mark rfl hrest)
  | array (x :: xs), hj =>
    obtain ⟨hx, hxs⟩ : x.Numberless ∧ NumberlessItems xs := hj
    have hend : Stops (layout.gap level ++ ']' :: cs) :=
      (stops_mark rfl).append_blanks (hblank.gap level)
    have hclose : Spells (layout.gap level ++ ']' :: cs) (.closeBracket :: ts) :=
      (Spells.mark rfl hrest).append_blanks (hblank.gap level)
    have hitems := spells_itemsChars hblank xs hxs (level + 1) hend hclose
    have hfirst := spells_chars hblank x hx (level + 1) (stops_itemsChars hend _ xs) hitems
    have hopen := Spells.mark (c := '[') rfl (hfirst.append_blanks (hblank.gap (level + 1)))
    simpa only [chars, tokens, List.cons_append, List.append_assoc, List.nil_append] using hopen
  | object [], _ => exact .mark rfl (.mark rfl hrest)
  | object ((k, x) :: rest), hj =>
    obtain ⟨hx, hfields⟩ : x.Numberless ∧ NumberlessFields rest := hj
    have hend : Stops (layout.gap level ++ '\x7d' :: cs) :=
      (stops_mark rfl).append_blanks (hblank.gap level)
    have hclose : Spells (layout.gap level ++ '\x7d' :: cs) (.closeBrace :: ts) :=
      (Spells.mark rfl hrest).append_blanks (hblank.gap level)
    have hothers := spells_fieldsChars hblank rest hfields (level + 1) hend hclose
    have hfirst := spells_chars hblank x hx (level + 1) (stops_fieldsChars hend _ rest) hothers
    have hfield := Spells.quoted k (.mark (c := ':') rfl (hfirst.append_blanks hblank.afterColon))
    have hopen := Spells.mark (c := '\x7b') rfl (hfield.append_blanks (hblank.gap (level + 1)))
    simpa only [chars, tokens, List.cons_append, List.append_assoc, List.nil_append] using hopen

theorem spells_itemsChars (hblank : layout.Blank) (items : List Json)
    (hitems : NumberlessItems items) (level : Nat) {cs : List Char} {ts : List Token}
    (hstops : Stops cs) (hrest : Spells cs ts) :
    Spells (itemsChars layout level items ++ cs) (itemsTokens items ++ ts) := by
  match items, hitems with
  | [], _ => exact hrest
  | x :: xs, ⟨hx, hxs⟩ =>
    have hothers := spells_itemsChars hblank xs hxs level hstops hrest
    have hfirst := spells_chars hblank x hx level (stops_itemsChars hstops level xs) hothers
    have hcomma := Spells.mark (c := ',') rfl (hfirst.append_blanks (hblank.gap level))
    simpa only [itemsChars, itemsTokens, List.cons_append, List.append_assoc] using hcomma

theorem spells_fieldsChars (hblank : layout.Blank) (fields : List (String × Json))
    (hfields : NumberlessFields fields) (level : Nat) {cs : List Char} {ts : List Token}
    (hstops : Stops cs) (hrest : Spells cs ts) :
    Spells (fieldsChars layout level fields ++ cs) (fieldsTokens fields ++ ts) := by
  match fields, hfields with
  | [], _ => exact hrest
  | (k, x) :: rest, ⟨hx, hxs⟩ =>
    have hothers := spells_fieldsChars hblank rest hxs level hstops hrest
    have hfirst := spells_chars hblank x hx level (stops_fieldsChars hstops level rest) hothers
    have hfield := Spells.quoted k (.mark (c := ':') rfl (hfirst.append_blanks hblank.afterColon))
    have hcomma := Spells.mark (c := ',') rfl (hfield.append_blanks (hblank.gap level))
    simpa only [fieldsChars, fieldsTokens, List.cons_append, List.append_assoc] using hcomma

end

end

namespace Document

theorem ofValues_eq_map (items : List Json) : ofValues items = items.map ofValue := by
  induction items with
  | nil => rfl
  | cons x xs ih => rw [ofValues, ih, List.map_cons]

theorem ofFields_eq_map (fields : List (String × Json)) :
    ofFields fields = fields.map fun f => (f.1, ofValue f.2) := by
  induction fields with
  | nil => rfl
  | cons f fields ih => rw [ofFields, ih, List.map_cons]

end Document

namespace Reader

open Document (ofValue ofValues ofFields)

/-- An object is closed with its fields, if all of its keys are readable. -/
theorem closeObject_readable (fields : List (String × Document)) :
    closeObject (fields.map fun f => (some f.1, f.2)).reverse = .object fields := by
  have hkeys {f : Option String × Document → Option (String × Document)}
      (hf : ∀ k d, f (some k, d) = some (k, d)) :
      (fields.map fun f => (some f.1, f.2)).mapM f = some fields := by
    rw [mapM_eq_some_iff, List.forall₂_map_left_iff, List.forall₂_same]
    exact fun e _ => hf e.1 e.2
  rw [closeObject, List.reverse_reverse, hkeys fun _ _ => rfl]

/-- A value starts with a token that does not end an array. -/
theorem exists_tokens_eq_cons (j : Json) : ∃ t ts, j.tokens = t :: ts ∧ t ≠ .closeBracket := by
  match j with
  | .null | .bool _ | .number _ | .string _ => exact ⟨_, [], rfl, nofun⟩
  | .array [] | .array (_ :: _) => exact ⟨.openBracket, _, rfl, nofun⟩
  | .object [] | .object (_ :: _) => exact ⟨.openBrace, _, rfl, nofun⟩

private theorem foldlM_item (j : Json) (frames : List Frame) (rest : List Token) :
    (j.tokens ++ rest).foldlM step? (.item frames) =
      (j.tokens ++ rest).foldlM step? (.value (.array [] :: frames)) := by
  obtain ⟨t, ts, htokens, ht⟩ := exists_tokens_eq_cons j
  have hstep : step? (.item frames) t = step? (.value (.array [] :: frames)) t := by
    cases t <;> first | rfl | exact absurd rfl ht
  rw [htokens, List.cons_append, List.foldlM_cons, List.foldlM_cons, hstep]

mutual

/-- Where a value may come, its tokens are taken and its document is handed on. -/
theorem foldlM_value (j : Json) (frames : List Frame) (rest : List Token) :
    (j.tokens ++ rest).foldlM step? (.value frames) =
      rest.foldlM step? (settle (ofValue j) frames) := by
  match j with
  | .null | .bool _ | .number _ | .string _ => rfl
  | .array [] => rfl
  | .array (x :: xs) =>
    rw [tokens]
    -- The first item stands after the bracket, and each further one after a comma.
    simp only [List.cons_append, List.append_assoc, List.nil_append]
    calc (Token.openBracket :: (x.tokens ++ (itemsTokens xs ++ .closeBracket :: rest))).foldlM
          step? (.value frames)
      _ = (x.tokens ++ (itemsTokens xs ++ .closeBracket :: rest)).foldlM step? (.item frames) := rfl
      _ = (itemsTokens xs ++ .closeBracket :: rest).foldlM step?
          (.afterItem [ofValue x] frames) := by
        rw [foldlM_item, foldlM_value, settle]
      _ = rest.foldlM step?
          (settle (.array ((ofValues xs).reverse ++ [ofValue x]).reverse) frames) := by
        rw [foldlM_items]
        rfl
      _ = rest.foldlM step? (settle (ofValue (.array (x :: xs))) frames) := by
        rw [List.reverse_append, List.reverse_reverse]
        rfl
  | .object [] => rfl
  | .object ((k, x) :: fields) =>
    rw [tokens]
    simp only [List.cons_append, List.append_assoc, List.nil_append]
    calc (Token.openBrace :: .string (some k) :: .colon ::
          (x.tokens ++ (fieldsTokens fields ++ .closeBrace :: rest))).foldlM step? (.value frames)
      _ = (x.tokens ++ (fieldsTokens fields ++ .closeBrace :: rest)).foldlM step?
          (.value (.object [] (some k) :: frames)) := rfl
      _ = (fieldsTokens fields ++ .closeBrace :: rest).foldlM step?
          (.afterField [(some k, ofValue x)] frames) := by
        rw [foldlM_value, settle]
      _ = rest.foldlM step? (settle (closeObject
          (((ofFields fields).map fun f => (some f.1, f.2)).reverse ++
            [(some k, ofValue x)])) frames) := by
        rw [foldlM_fields]
        rfl
      _ = rest.foldlM step? (settle (closeObject
          ((ofFields ((k, x) :: fields)).map fun f => (some f.1, f.2)).reverse) frames) := by
        rw [ofFields, List.map_cons, List.reverse_cons]
      _ = rest.foldlM step? (settle (ofValue (.object ((k, x) :: fields))) frames) := by
        rw [closeObject_readable, ofValue]

theorem foldlM_items (items : List Json) (before : List Document) (frames : List Frame)
    (rest : List Token) :
    (itemsTokens items ++ rest).foldlM step? (.afterItem before frames) =
      rest.foldlM step? (.afterItem ((ofValues items).reverse ++ before) frames) := by
  match items with
  | [] => rfl
  | x :: xs =>
    calc (itemsTokens (x :: xs) ++ rest).foldlM step? (.afterItem before frames)
      _ = (x.tokens ++ (itemsTokens xs ++ rest)).foldlM step?
          (.value (.array before :: frames)) := by
        rw [itemsTokens, List.cons_append, List.append_assoc]
        rfl
      _ = (itemsTokens xs ++ rest).foldlM step? (.afterItem (ofValue x :: before) frames) := by
        rw [foldlM_value, settle]
      _ = rest.foldlM step?
          (.afterItem ((ofValues (x :: xs)).reverse ++ before) frames) := by
        rw [foldlM_items, ofValues, List.reverse_cons, List.append_assoc, List.singleton_append]

theorem foldlM_fields (fields : List (String × Json)) (before : List (Option String × Document))
    (frames : List Frame) (rest : List Token) :
    (fieldsTokens fields ++ rest).foldlM step? (.afterField before frames) =
      rest.foldlM step? (.afterField
        (((ofFields fields).map fun f => (some f.1, f.2)).reverse ++ before) frames) := by
  match fields with
  | [] => rfl
  | (k, x) :: fields =>
    calc (fieldsTokens ((k, x) :: fields) ++ rest).foldlM step? (.afterField before frames)
      _ = (x.tokens ++ (fieldsTokens fields ++ rest)).foldlM step?
          (.value (.object before (some k) :: frames)) := by
        rw [fieldsTokens, List.cons_append, List.cons_append, List.cons_append, List.append_assoc]
        rfl
      _ = (fieldsTokens fields ++ rest).foldlM step?
          (.afterField ((some k, ofValue x) :: before) frames) := by
        rw [foldlM_value, settle]
      _ = rest.foldlM step? (.afterField
          (((ofFields ((k, x) :: fields)).map fun f => (some f.1, f.2)).reverse ++ before)
          frames) := by
        rw [foldlM_fields, ofFields, List.map_cons, List.reverse_cons, List.append_assoc,
          List.singleton_append]

end

end Reader

theorem Document.ofTokens?_tokens (j : Json) : ofTokens? j.tokens = some (ofValue j) := by
  have hrun := Reader.foldlM_value j [] []
  rw [List.append_nil] at hrun
  rw [ofTokens?, hrun]
  rfl

/-- Whatever the layout, and with blanks at its end, the text of a value is read to the document of
the value. -/
theorem Document.read?_chars {layout : Layout} (hblank : layout.Blank) {j : Json}
    (hj : j.Numberless) (blanks : List Char) (hblanks : ∀ c ∈ blanks, Token.isSpace c = true) :
    read? (String.ofList (j.chars layout 0 ++ blanks)) = some (ofValue j) := by
  have hend : Stops (blanks ++ []) := Stops.append_blanks hblanks nofun
  have hspells := spells_chars hblank j hj 0 hend (Spells.nil.append_blanks hblanks)
  rw [List.append_nil, List.append_nil] at hspells
  rw [read?, String.toList_ofList, hspells.scan?]
  exact ofTokens?_tokens j

theorem Document.read?_compact {j : Json} (hj : j.Numberless) :
    read? j.compact = some (ofValue j) := by
  have hread := read?_chars Layout.blank_dense hj [] nofun
  rwa [List.append_nil] at hread

/-- A text over lines, which ends with a line break. -/
theorem Document.read?_pretty {j : Json} (hj : j.Numberless) :
    read? (j.pretty ++ "\n") = some (ofValue j) := by
  have hread := read?_chars Layout.blank_indented hj ['\n'] (List.all_eq_true.mp rfl)
  rwa [String.ofList_append] at hread

end Schematic.Json
