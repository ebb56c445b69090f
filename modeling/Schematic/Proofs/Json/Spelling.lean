import Schematic.Json.Basic
import Schematic.Json.Token
import Mathlib.Data.List.Basic

namespace Schematic.Json

namespace Quoted

private theorem hexNumber?_hexDigit {n : Nat} (hn : n < 0x20) :
    hexNumber? '0' '0' (hexDigit (n / 16)) (hexDigit (n % 16)) = some n := by
  have hall : ∀ m < 0x20,
      hexNumber? '0' '0' (hexDigit (m / 16)) (hexDigit (m % 16)) = some m := by decide
  exact hall n hn

/-- No digit ends the string or starts an escape. -/
theorem hexDigit_plain (n : Nat) : hexDigit n ≠ '"' ∧ hexDigit n ≠ '\\' := by
  have hall : ('0' :: hexDigits).all (fun c => c ≠ '"' ∧ c ≠ '\\') = true := by decide
  have hdigit : hexDigit n ∈ '0' :: hexDigits := by
    rw [hexDigit, List.getD_eq_getElem?_getD]
    cases hget : hexDigits[n]? with
    | none => exact List.mem_cons_self
    | some c => exact List.mem_cons_of_mem _ (List.mem_of_getElem? hget)
  exact of_decide_eq_true (List.all_eq_true.mp hall _ hdigit)

/-- A character is written by a short escape, by its number, or as it is. -/
theorem escape_cases (c : Char) :
    (∃ e, escape c = ['\\', e] ∧ e ≠ 'u' ∧ shortEscape? e = some c) ∨
    (c.toNat < 0x20 ∧
      escape c = ['\\', 'u', '0', '0', hexDigit (c.toNat / 16), hexDigit (c.toNat % 16)]) ∨
    (escape c = [c] ∧ c ≠ '"' ∧ c ≠ '\\' ∧ ¬ c.toNat < 0x20) := by
  unfold escape
  split
  · next hc => exact .inl ⟨'"', rfl, by decide, by rw [hc]; rfl⟩
  split
  · next hc => exact .inl ⟨'\\', rfl, by decide, by rw [hc]; rfl⟩
  split
  · next hc => exact .inl ⟨'b', rfl, by decide, by rw [hc]; rfl⟩
  split
  · next hc => exact .inl ⟨'f', rfl, by decide, by rw [hc]; rfl⟩
  split
  · next hc => exact .inl ⟨'n', rfl, by decide, by rw [hc]; rfl⟩
  split
  · next hc => exact .inl ⟨'r', rfl, by decide, by rw [hc]; rfl⟩
  split
  · next hc => exact .inl ⟨'t', rfl, by decide, by rw [hc]; rfl⟩
  split
  · next hcontrol => exact .inr (.inl ⟨hcontrol, rfl⟩)
  · next hquote hslash _ _ _ _ _ hprintable =>
    exact .inr (.inr ⟨rfl, hquote, hslash, hprintable⟩)

private theorem ofNat_toNat {c : Char} (hc : c.toNat < 0x20) :
    CodePoint.ofNat c.toNat = .scalar c := by
  unfold CodePoint.ofNat
  rw [if_neg (by omega), if_neg (by omega), Char.ofNat_toNat]

theorem unescape?_escape_append (c : Char) (rest : List Char) :
    unescape? (escape c ++ rest) = (unescape? rest).map (.scalar c :: ·) := by
  obtain ⟨e, he, hnumber, hshort⟩ | ⟨hcontrol, he⟩ | ⟨he, hquote, hslash, hprintable⟩ :=
    escape_cases c
  · rw [he, List.cons_append, List.singleton_append, unescape?, hshort]
    · cases unescape? rest <;> rfl
    · rintro a b c' d rest' heq -
      exact hnumber heq
  · rw [he]
    simp only [List.cons_append, List.nil_append, unescape?, hexNumber?_hexDigit hcontrol]
    cases unescape? rest <;> simp [ofNat_toNat hcontrol]
  · rw [he, List.singleton_append, unescape?, if_neg (by simp [hquote, hslash, hprintable])]
    · cases unescape? rest <;> rfl
    · rintro a b c' d rest' hc -
      exact hslash hc
    · rintro e rest' hc -
      exact hslash hc

private theorem unescape?_encode (cs : List Char) :
    unescape? (encode cs) = some (cs.map .scalar) := by
  induction cs with
  | nil => rfl
  | cons c cs ih =>
    rw [encode, List.flatMap_cons, unescape?_escape_append, ← encode, ih]
    rfl

private theorem join?_scalars (cs : List Char) : join? (cs.map .scalar) = some cs := by
  induction cs with
  | nil => rfl
  | cons c cs ih => rw [List.map_cons, join?, ih]; rfl

end Quoted

namespace Token

theorem isWordChar_space {c : Char} (hc : isSpace c = true) : isWordChar c = false := by
  have hblank : c = ' ' ∨ c = '\t' ∨ c = '\n' ∨ c = '\r' := by
    simpa [isSpace, or_assoc] using hc
  rcases hblank with rfl | rfl | rfl | rfl <;> decide

private theorem ofQuoted?_encode (s : String) :
    ofQuoted? (Quoted.encode s.toList) = some (.string (some s)) := by
  rw [ofQuoted?, Quoted.unescape?_encode, Option.map_some, Quoted.join?_scalars, Option.map_some,
    String.ofList_toList]

namespace Scan

variable {tokens : List Token}

/-- Inside a string, the scanner goes on over an escaped character. -/
theorem foldlM_step?_escape (chars : List Char) (c : Char) :
    (Quoted.escape c).foldlM step? ⟨tokens, .quoted chars⟩ =
      some ⟨tokens, .quoted ((Quoted.escape c).reverse ++ chars)⟩ := by
  obtain ⟨e, he, -, -⟩ | ⟨-, he⟩ | ⟨he, hquote, hslash, -⟩ := Quoted.escape_cases c
  · rw [he]
    rfl
  · obtain ⟨hquote, hslash⟩ := Quoted.hexDigit_plain (c.toNat / 16)
    obtain ⟨hquote', hslash'⟩ := Quoted.hexDigit_plain (c.toNat % 16)
    rw [he]
    simp [step?, hquote, hslash, hquote', hslash']
  · rw [he]
    simp [step?, hquote, hslash]

private theorem foldlM_step?_encode (chars cs : List Char) :
    (Quoted.encode cs).foldlM step? ⟨tokens, .quoted chars⟩ =
      some ⟨tokens, .quoted ((Quoted.encode cs).reverse ++ chars)⟩ := by
  induction cs generalizing chars with
  | nil => rfl
  | cons c cs ih =>
    rw [Quoted.encode, List.flatMap_cons, ← Quoted.encode, List.foldlM_append,
      foldlM_step?_escape, List.reverse_append, List.append_assoc]
    exact ih _

/-- The scanner has found the tokens, of which the latest may be a word that it is still in. -/
inductive Holds : Scan → List Token → Prop where
  | between (tokens : List Token) : Holds ⟨tokens, .between⟩ tokens
  | word {chars : List Char} {t : Token} (tokens : List Token)
      (hword : ofWord? chars.reverse = some t) : Holds ⟨tokens, .word chars⟩ (t :: tokens)

variable {s : Scan}

theorem Holds.finish? (hs : s.Holds tokens) : s.finish? = some tokens.reverse := by
  cases hs with
  | between => rfl
  | word tokens hword => simp [Scan.finish?, hword]

/-- A character that cannot continue a word ends the one that the scanner may be in. -/
theorem Holds.step? (hs : s.Holds tokens) {c : Char} (hc : isWordChar c = false) :
    s.step? c = enter? tokens c := by
  cases hs with
  | between => rfl
  | word tokens hword => simp [Scan.step?, hc, hword]

theorem Holds.foldlM_step?_quote (hs : s.Holds tokens) (text : String) :
    (quote text).foldlM Scan.step? s = some ⟨.string (some text) :: tokens, .between⟩ := by
  have henter : s.step? '"' = some ⟨tokens, .quoted []⟩ := hs.step? (by decide)
  rw [quote, List.foldlM_cons, henter]
  change (Quoted.encode text.toList ++ ['"']).foldlM Scan.step? ⟨tokens, .quoted []⟩ = _
  rw [List.foldlM_append, foldlM_step?_encode]
  simp [Scan.step?, ofQuoted?_encode]

private theorem foldlM_step?_word {word : List Char} (hword : ∀ c ∈ word, isWordChar c = true)
    (chars : List Char) :
    word.foldlM Scan.step? ⟨tokens, .word chars⟩ =
      some ⟨tokens, .word (word.reverse ++ chars)⟩ := by
  induction word generalizing chars with
  | nil => rfl
  | cons c word ih =>
    obtain ⟨hc, hrest⟩ := List.forall_mem_cons.mp hword
    have hstep : Scan.step? ⟨tokens, .word chars⟩ c = some ⟨tokens, .word (c :: chars)⟩ :=
      if_pos hc
    rw [List.foldlM_cons, hstep, List.reverse_cons, List.append_assoc]
    exact ih hrest (c :: chars)

private theorem enter?_wordChar {c : Char} (hc : isWordChar c = true) :
    enter? tokens c = some ⟨tokens, .word [c]⟩ := by
  have hspace : isSpace c = false := by
    rw [Bool.eq_false_iff]
    intro hspace
    simp [isWordChar_space hspace] at hc
  have hquote : c ≠ '"' := by
    rintro rfl
    exact absurd hc (by decide)
  simp [enter?, hspace, hquote, hc]

end Scan

/-- What follows a word does not continue it. -/
def Stops (cs : List Char) : Prop :=
  ∀ c ∈ cs.head?, isWordChar c = false

/-- The text spells the tokens, one after another. -/
inductive Spells : List Char → List Token → Prop where
  | nil : Spells [] []
  | space {c : Char} {cs : List Char} {ts : List Token} (hc : isSpace c = true)
      (hrest : Spells cs ts) : Spells (c :: cs) ts
  | mark {c : Char} {t : Token} {cs : List Char} {ts : List Token} (hc : punctuation? c = some t)
      (hrest : Spells cs ts) : Spells (c :: cs) (t :: ts)
  | quoted (text : String) {cs : List Char} {ts : List Token} (hrest : Spells cs ts) :
      Spells (quote text ++ cs) (.string (some text) :: ts)
  | word {w cs : List Char} {t : Token} {ts : List Token} (hchars : ∀ c ∈ w, isWordChar c = true)
      (hword : ofWord? w = some t) (hstops : Stops cs) (hrest : Spells cs ts) :
      Spells (w ++ cs) (t :: ts)

private theorem enter?_space {tokens : List Token} {c : Char} (hc : isSpace c = true) :
    Scan.enter? tokens c = some ⟨tokens, .between⟩ :=
  if_pos hc

/-- Punctuation is neither blank nor quote nor part of a word. -/
theorem enter?_mark {tokens : List Token} {c : Char} {t : Token} (hc : punctuation? c = some t) :
    isWordChar c = false ∧ Scan.enter? tokens c = some ⟨t :: tokens, .between⟩ := by
  unfold punctuation? at hc
  split at hc <;> cases hc <;> exact ⟨by decide, rfl⟩

/-- What the scanner does from a state in which it has found some tokens already. If it is in a
word, the text must not continue it. -/
theorem Spells.foldlM_step? {cs : List Char} {ts : List Token} (hspells : Spells cs ts)
    {s : Scan} {tokens : List Token} (hs : s.Holds tokens)
    (hready : s.mode = .between ∨ Stops cs) :
    ∃ s' : Scan, cs.foldlM Scan.step? s = some s' ∧ s'.Holds (ts.reverse ++ tokens) := by
  -- Blanks, punctuation and quotes end a word by themselves; only a further word needs `hready`.
  induction hspells generalizing s tokens with
  | nil => exact ⟨s, rfl, hs⟩
  | space hc hrest ih =>
    rw [List.foldlM_cons, hs.step? (isWordChar_space hc), enter?_space hc]
    exact ih (.between tokens) (.inl rfl)
  | mark hc hrest ih =>
    obtain ⟨hplain, henter⟩ := enter?_mark hc
    rw [List.foldlM_cons, hs.step? hplain, henter, List.reverse_cons, List.append_assoc]
    exact ih (.between _) (.inl rfl)
  | quoted text hrest ih =>
    rw [List.foldlM_append, hs.foldlM_step?_quote, List.reverse_cons, List.append_assoc]
    exact ih (.between _) (.inl rfl)
  | @word w cs t ts hchars hword hstops hrest ih =>
    cases w with
    | nil => cases hword
    | cons c w =>
      obtain ⟨hc, hrestChars⟩ := List.forall_mem_cons.mp hchars
      have hbetween : s.mode = .between := by
        refine hready.resolve_right fun hstops => ?_
        simp [hstops c rfl] at hc
      cases hs with
      | word tokens hword => cases hbetween
      | between =>
        have hstep : Scan.step? ⟨tokens, .between⟩ c = some ⟨tokens, .word [c]⟩ :=
          Scan.enter?_wordChar hc
        rw [List.cons_append, List.foldlM_cons, hstep, List.reverse_cons, List.append_assoc]
        change ∃ s', (w ++ cs).foldlM Scan.step? ⟨tokens, .word [c]⟩ = some s' ∧ _
        rw [List.foldlM_append, Scan.foldlM_step?_word hrestChars]
        exact ih (.word tokens (by simpa using hword)) (.inr hstops)

/-- The scanner finds what a text spells. -/
theorem Spells.scan? {cs : List Char} {ts : List Token} (hspells : Spells cs ts) :
    scan? cs = some ts := by
  obtain ⟨s, hscan, hs⟩ := hspells.foldlM_step? (.between []) (.inl rfl)
  rw [Token.scan?, Scan.start, hscan]
  simpa using hs.finish?

end Token

end Schematic.Json
