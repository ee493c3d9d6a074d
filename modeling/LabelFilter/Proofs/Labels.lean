import LabelFilter.Proofs.Tokens
import LabelFilter.Proofs.WrittenForm

/-!
# Labels in texts

`isLabel` looks at a text alone, and names and values are checked by it before they are written. What it promises is
about texts that are cut into tokens: a label is one token by itself, no other text is (`isLabel_iff_tokenize`), and
between two texts that no word runs into, a label is the same token, with the tokens of the two texts around it
(`isLabel_iff_tokenize_and_between`).

Behind a text that ends in no character of a label, a word begins a lexeme of its own (`Lexeme.chain_word`). In front
of one that begins with no such character, a word ends.
-/

namespace LabelFilter

open Text

namespace Lexeme

/-! ## Words behind other lexemes -/

/-- A lexeme that ends in no character of a label is no word. -/
theorem Proper.not_word {l : Lexeme} (h : l.Proper) (hlast : ∀ c ∈ l.text.getLast?, isLabelChar c = false) :
    l.kind ∉ [.isIn, .notIn, .label] := by
  intro hkind
  obtain ⟨hne, hword⟩ := (h.isWord hkind).1
  have hno := hlast _ (List.getLast?_eq_some_getLast hne)
  rw [hword _ (List.getLast_mem hne)] at hno
  cases hno

/-- The last lexeme ends where the text ends. -/
theorem Chain.getLast?_text {ls : List Lexeme} {left : List Char} (h : Chain ls left) {l : Lexeme}
    (hl : l ∈ ls.getLast?) : l.Proper ∧ l.text.getLast? = (chars ls).getLast? := by
  obtain ⟨init, rfl⟩ := List.getLast?_eq_some_iff.mp hl
  obtain ⟨hproper, _, _⟩ := (chain_append.mp h).2
  refine ⟨hproper, ?_⟩
  rw [chars_append, chars_cons, chars_nil, List.append_nil, List.getLast?_append,
    List.getLast?_eq_some_getLast hproper.text_ne_nil, Option.some_or]

/-- A word begins where no word can run into it. -/
theorem chain_word {ls : List Lexeme} {word : List Char} (h : Chain ls [])
    (hlast : ∀ c ∈ (chars ls).getLast?, isLabelChar c = false) (hword : IsWord word) (rest : List Char) :
    Chain ls (word ++ rest) := by
  refine chain_iff_last.mpr ⟨h, fun l hl => ?_⟩
  obtain ⟨hproper, htext⟩ := h.getLast?_text hl
  exact endsBefore_word (hproper.not_word (htext ▸ hlast)) hword rest

end Lexeme

/-! ## Labels and the texts around them -/

theorem Token.shift_shift (a b : Nat) (t : Token) : (t.shift a).shift b = t.shift (b + a) := by
  rw [shift, shift, shift, Nat.add_assoc, Nat.add_comm a b]

/-- A label in front of a text in which no word goes on is one token more. -/
theorem tokenize_label_append {text q : String} {us : List Token} (h : isLabel text) (hq : Lexeme.Breaks q.toList)
    (hus : tokenize q = .ok us) :
    tokenize (text ++ q) = .ok (⟨.label, some text, 0⟩ :: us.map (Token.shift (byteLength text.toList))) := by
  have hchars : text.toList = Lexeme.chars [Lexeme.ofLabel text] := (List.append_nil _).symm
  have hchain : Lexeme.Chain [Lexeme.ofLabel text] q.toList := ⟨Lexeme.proper_ofLabel h, hq, trivial⟩
  have hplace : Lexeme.place 0 [Lexeme.ofLabel text] = [⟨.label, some text, 0⟩] := by
    rw [Lexeme.place_of_not_blank 0 (by simp [Lexeme.ofLabel])]
    simp [Lexeme.ofLabel]
  rw [tokenize_append hchars hchain, hus, hplace]
  rfl

/-- A label behind a text that no word goes on from keeps the tokens of the text. -/
theorem tokenize_append_label {p text rest : String} {ts us : List Token} (h : isLabel text)
    (hp : ∀ c ∈ p.toList.getLast?, isLabelChar c = false) (hts : tokenize p = .ok ts)
    (hus : tokenize (text ++ rest) = .ok us) :
    tokenize (p ++ (text ++ rest)) = .ok (ts ++ us.map (Token.shift (byteLength p.toList))) := by
  obtain ⟨ls, hchars, hchain, rfl⟩ := tokenize_eq_ok_iff.mp hts
  rw [hchars] at hp
  have hword : Lexeme.Chain ls (text ++ rest).toList := by
    rw [String.toList_append]
    exact Lexeme.chain_word hchain hp (isLabel_iff.mp h).1 rest.toList
  rw [tokenize_append hchars hword, hus]
  rfl

/-- The labels are the texts of one token that carries all of the text. -/
theorem isLabel_iff_tokenize {text : String} : isLabel text ↔ tokenize text = .ok [⟨.label, some text, 0⟩] := by
  constructor
  · intro h
    have hempty : tokenize "" = .ok [] := tokenize_eq_ok_iff.mpr ⟨[], rfl, trivial, rfl⟩
    have hbreaks : Lexeme.Breaks "".toList := by simp [Lexeme.Breaks]
    have halone := tokenize_label_append h hbreaks hempty
    rwa [String.append_empty] at halone
  · intro h
    obtain ⟨ls, _, hchain, hplace⟩ := tokenize_eq_ok_iff.mp h
    have hterminal : ls.filterMap Lexeme.terminal? = [.label text] := by
      rw [← Lexeme.terminal_place 0, ← hplace]
      rfl
    exact Lexeme.isLabel_of_label_mem hchain (by rw [hterminal]; exact List.mem_cons_self)

/-- **Labels are tokens wherever they stand.** A text is a label exactly if its only token is a label that carries the
text. Between two texts that no word runs into, a label is that token, behind the tokens of the first text and in
front of those of the second. -/
theorem isLabel_iff_tokenize_and_between (text : String) :
    (isLabel text ↔ tokenize text = .ok [⟨.label, some text, 0⟩]) ∧
    ∀ (p q : String) (ts us : List Token), isLabel text →
      (∀ c ∈ p.toList.getLast?, isLabelChar c = false) → (∀ c ∈ q.toList.head?, isLabelChar c = false) →
      tokenize p = .ok ts → tokenize q = .ok us →
      tokenize (p ++ text ++ q) = .ok (ts ++ ⟨.label, some text, byteLength p.toList⟩ ::
        us.map (Token.shift (byteLength p.toList + byteLength text.toList))) := by
  refine ⟨isLabel_iff_tokenize, ?_⟩
  intro p q ts us h hp hq hts hus
  have hlater := tokenize_label_append h hq hus
  have hall := tokenize_append_label h hp hts hlater
  have hmoved : (us.map (Token.shift (byteLength text.toList))).map (Token.shift (byteLength p.toList)) =
      us.map (Token.shift (byteLength p.toList + byteLength text.toList)) := by
    rw [List.map_map]
    exact List.map_congr_left fun t _ => t.shift_shift _ _
  have hlabel : (⟨.label, some text, 0⟩ : Token).shift (byteLength p.toList) =
      ⟨.label, some text, byteLength p.toList⟩ := by rw [Token.shift, Nat.zero_add]
  rw [String.append_assoc, hall, List.map_cons, hmoved, hlabel]

/-- A label that begins with a keyword, behind a sign and in front of a sign. -/
theorem tokenize_between_signs :
    isLabel "notinü" ∧ tokenize "é !" = .ok [⟨.label, some "é", 0⟩, ⟨.bang, none, 3⟩] ∧
    tokenize "==in" = .ok [⟨.equals, none, 0⟩, ⟨.isIn, none, 2⟩] ∧
    tokenize ("é !" ++ "notinü" ++ "==in") =
      .ok [⟨.label, some "é", 0⟩, ⟨.bang, none, 3⟩, ⟨.label, some "notinü", 4⟩, ⟨.equals, none, 11⟩,
        ⟨.isIn, none, 13⟩] := by
  have hlabel : isLabel "notinü" := by decide +kernel
  have hbefore : tokenize "é !" = .ok [⟨.label, some "é", 0⟩, ⟨.bang, none, 3⟩] :=
    tokenize_eq_ok_iff.mpr
      ⟨[Lexeme.ofLabel "é", Lexeme.mark .blank, Lexeme.mark .bang], by decide, by decide +kernel, rfl⟩
  have hafter : tokenize "==in" = .ok [⟨.equals, none, 0⟩, ⟨.isIn, none, 2⟩] :=
    tokenize_eq_ok_iff.mpr ⟨[⟨.equals, ['=', '=']⟩, Lexeme.mark .isIn], by decide, by decide +kernel, rfl⟩
  have hends : ∀ c ∈ "é !".toList.getLast?, isLabelChar c = false := by
    have hlast : "é !".toList.getLast? = some '!' := by decide
    rw [hlast]
    rintro _ ⟨⟩
    decide
  have hbegins : ∀ c ∈ "==in".toList.head?, isLabelChar c = false := by
    have hhead : "==in".toList.head? = some '=' := by decide
    rw [hhead]
    rintro _ ⟨⟩
    decide
  have hbetween := (isLabel_iff_tokenize_and_between "notinü").2 "é !" "==in" _ _ hlabel hends hbegins hbefore hafter
  exact ⟨hlabel, hbefore, hafter, hbetween⟩

end LabelFilter
