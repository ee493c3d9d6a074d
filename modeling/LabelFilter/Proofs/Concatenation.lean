import LabelFilter.Proofs.Reading

/-!
# Texts one after the other

Where no lexeme of a text goes on into the next text, the lexemes of both are those of the first and then those of the
second (`Lexeme.split_chars_append`). So are their tokens and so is the fault, which stand further on in the whole by
the bytes of the first text (`tokenize_append`).

Whether a lexeme goes on is a question about the last one only (`Lexeme.chain_iff_last`).
-/

namespace LabelFilter

open Text

/-! ## Further on -/

/-- The token behind more bytes. -/
def Token.shift (bytes : Nat) (t : Token) : Token := { t with offset := t.offset + bytes }

@[simp] theorem Token.kind_shift (bytes : Nat) (t : Token) : (t.shift bytes).kind = t.kind := rfl

@[simp] theorem Token.terminal_shift (bytes : Nat) (t : Token) : (t.shift bytes).terminal = t.terminal := rfl

/-- The character behind more bytes. -/
def StrayCharacter.shift (bytes : Nat) (e : StrayCharacter) : StrayCharacter := { e with offset := e.offset + bytes }

namespace Lexeme

/-! ## Lexemes -/

theorem Proper.text_ne_nil {l : Lexeme} (h : l.Proper) : l.text ≠ [] := (read?_append (proper_iff_read?.mp h)).2

theorem Chain.text_ne_nil {ls : List Lexeme} {left : List Char} (h : Chain ls left) : ∀ l ∈ ls, l.text ≠ [] := by
  induction ls with
  | nil => exact fun l hl => (nomatch hl)
  | cons l ls ih => exact List.forall_mem_cons.mpr ⟨h.1.text_ne_nil, ih h.2.2⟩

/-- Only the first character of what follows counts. -/
theorem endsBefore_append {l : Lexeme} {text : List Char} (h : text ≠ []) (rest : List Char) :
    l.EndsBefore (text ++ rest) ↔ l.EndsBefore text := by
  obtain ⟨c, cs, rfl⟩ := List.exists_cons_of_ne_nil h
  rw [List.cons_append, endsBefore_cons, endsBefore_cons]

/-- Lexemes that follow one another do so before any text that the last of them ends before. -/
theorem chain_iff_last {ls : List Lexeme} {left : List Char} :
    Chain ls left ↔ Chain ls [] ∧ ∀ l ∈ ls.getLast?, l.EndsBefore left := by
  induction ls with
  | nil => simp [Chain]
  | cons l ls ih =>
    cases ls with
    | nil => simp [Chain, EndsBefore.nil]
    | cons m ms =>
      have hends : Chain (m :: ms) [] → (l.EndsBefore (chars (m :: ms) ++ left) ↔ l.EndsBefore (chars (m :: ms))) := by
        intro h
        rw [chars_cons]
        exact endsBefore_append (List.append_ne_nil_of_left_ne_nil h.1.text_ne_nil _) left
      rw [chain_cons, @chain_cons l (m :: ms), ih, List.getLast?_cons_cons, List.append_nil]
      constructor
      · rintro ⟨hproper, h, hchain, hlast⟩
        exact ⟨⟨hproper, (hends hchain).mp h, hchain⟩, hlast⟩
      · rintro ⟨⟨hproper, h, hchain⟩, hlast⟩
        exact ⟨hproper, (hends hchain).mpr h, hchain, hlast⟩

/-- Lexemes that end before a text are cut off in front of it. -/
theorem split_chars_append {ls : List Lexeme} {cs : List Char} (h : Chain ls cs) :
    split (chars ls ++ cs) = (ls ++ (split cs).1, (split cs).2) := by
  obtain ⟨hcs, hchain, hnone⟩ := split_eq_iff.mp (Prod.eta (split cs)).symm
  refine split_eq_iff.mpr ⟨?_, chain_append.mpr ⟨?_, hchain⟩, hnone⟩
  · rw [chars_append, List.append_assoc, ← hcs]
  · rwa [← hcs]

/-! ## Tokens -/

theorem place_append (offset : Nat) (ls ms : List Lexeme) :
    place offset (ls ++ ms) = place offset ls ++ place (offset + byteLength (chars ls)) ms := by
  induction ls generalizing offset with
  | nil => rfl
  | cons l ls ih =>
    obtain ⟨kind, text⟩ := l
    have hlater := ih (offset + byteLength text)
    rw [Nat.add_assoc, ← byteLength_append] at hlater
    cases kind
    case blank => exact hlater
    all_goals exact congrArg _ hlater

/-- Lexemes that stand further on have their tokens further on. -/
theorem place_add (offset bytes : Nat) (ls : List Lexeme) :
    place (offset + bytes) ls = (place offset ls).map (Token.shift bytes) := by
  induction ls generalizing offset with
  | nil => rfl
  | cons l ls ih =>
    obtain ⟨kind, text⟩ := l
    have hlater := ih (offset + byteLength text)
    rw [Nat.add_right_comm] at hlater
    cases kind
    case blank => exact hlater
    all_goals exact congrArg _ hlater

/-- Only blanks have no tokens. -/
theorem isBlank_of_place_eq_nil {offset : Nat} {ls : List Lexeme} {left : List Char} (hchain : Chain ls left)
    (h : place offset ls = []) : ∀ c ∈ chars ls, isBlank c := by
  induction ls generalizing offset with
  | nil => exact fun c hc => (nomatch hc)
  | cons l ls ih =>
    obtain ⟨hproper, _, hchain⟩ := hchain
    cases hproper with
    | blanks _ hblank =>
      intro c hc
      rcases List.mem_append.mp hc with hc | hc
      · exact hblank c hc
      · exact ih hchain h c hc
    | @word word _ =>
      unfold wordKind at h
      cases hkeyword : Keyword.ofWord? word with
      | none => rw [hkeyword] at h; cases h
      | some k => cases k <;> (rw [hkeyword] at h; cases h)
    | _ => cases h

end Lexeme

open Lexeme

/-- Tokens are cut off a text in front of what they end before. -/
theorem tokenize_append {a b : String} {ls : List Lexeme} (ha : a.toList = chars ls) (h : Chain ls b.toList) :
    tokenize (a ++ b) =
      ((tokenize b).map fun ts => place 0 ls ++ ts.map (Token.shift (byteLength a.toList))).mapError
        (StrayCharacter.shift (byteLength a.toList)) := by
  have hsplit := split_chars_append h
  unfold tokenize
  rw [String.toList_append, ha, hsplit]
  cases hb : split b.toList with
  | mk ms left =>
    cases left with
    | nil =>
      have hplace : place 0 (ls ++ ms) = place 0 ls ++ (place 0 ms).map (Token.shift (byteLength (chars ls))) := by
        rw [place_append, ← place_add]
      exact congrArg Except.ok hplace
    | cons c left =>
      have hoffset : byteLength (chars (ls ++ ms)) = byteLength (chars ms) + byteLength (chars ls) := by
        rw [chars_append, byteLength_append, Nat.add_comm]
      exact congrArg (fun offset => Except.error (StrayCharacter.mk offset c)) hoffset

/-- A text that is not blank has tokens. -/
theorem tokens_ne_nil {text : String} {ts : List Token} (h : tokenize text = .ok ts)
    (hblank : ∃ c ∈ text.toList, isBlank c = false) : ts ≠ [] := by
  obtain ⟨ls, hchars, hchain, rfl⟩ := tokenize_eq_ok_iff.mp h
  obtain ⟨c, hc, hno⟩ := hblank
  intro hnil
  have hyes := isBlank_of_place_eq_nil hchain hnil c (hchars ▸ hc)
  exact Bool.false_ne_true (hno.symm.trans hyes)

end LabelFilter
