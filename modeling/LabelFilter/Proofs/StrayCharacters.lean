import LabelFilter.Proofs.Reading
import Mathlib.Data.List.TakeWhile

/-!
# Stray characters

A text is no sequence of lexemes exactly if some character of it is a control character and no blank, and the first such
character is the one that is reported, with the bytes before it (`tokenize_eq_error_iff`).

Whether a character begins a lexeme is decided by that character alone (`Lexeme.read?_eq_none_iff`), and no lexeme has a
stray character inside (`Lexeme.Proper.not_isStray`). So the lexemes of a text reach up to its first stray character
(`Lexeme.chars_split`), whatever they are.
-/

namespace LabelFilter

open Text

/-- A control character that is no blank. -/
def isStray (c : Char) : Bool := isControl c && !isBlank c

/-- The character is the first stray character of the text, and has that many bytes before it. -/
def StrayCharacter.IsFirstOf (e : StrayCharacter) (text : String) : Prop :=
  ∃ before after, text.toList = before ++ e.found :: after ∧ e.offset = byteLength before ∧
    isStray e.found ∧ ∀ c ∈ before, isStray c = false

/-! ## Characters -/

/-- What is neither a blank nor a character of labels nor punctuation is stray. -/
theorem isStray_iff {c : Char} : isStray c ↔ isBlank c = false ∧ isLabelChar c = false ∧ c ∉ reserved := by
  have hreserved : c ∈ reserved → isControl c = false := by
    have hall : reserved.all fun c => !isControl c := by decide
    intro hc
    simpa using List.all_eq_true.mp hall c hc
  rw [isStray, isLabelChar]
  by_cases hc : c ∈ reserved
  · simp [hc, hreserved hc]
  · cases isControl c <;> simp [hc]

theorem isStray_of_isBlank {c : Char} (h : isBlank c) : isStray c = false := by
  simp [isStray, h]

theorem isStray_of_isLabelChar {c : Char} (h : isLabelChar c) : isStray c = false :=
  Bool.eq_false_iff.mpr fun hstray => by simp [(isStray_iff.mp hstray).2.1] at h

theorem isStray_of_mem_reserved {c : Char} (h : c ∈ reserved) : isStray c = false :=
  Bool.eq_false_iff.mpr fun hstray => (isStray_iff.mp hstray).2.2 h

namespace Lexeme

/-! ## Lexemes -/

/-- No lexeme has a stray character inside. -/
theorem Proper.not_isStray {l : Lexeme} (h : l.Proper) : ∀ c ∈ l.text, isStray c = false := by
  intro c hc
  cases h with
  | blanks _ hblank => exact isStray_of_isBlank (hblank c hc)
  | word hword => exact isStray_of_isLabelChar (hword.2 c hc)
  | _ =>
    refine isStray_of_mem_reserved (List.contains_iff_mem.mp (List.all_eq_true.mp ?_ c hc))
    decide

theorem Chain.not_isStray {ls : List Lexeme} {left : List Char} (h : Chain ls left) :
    ∀ c ∈ chars ls, isStray c = false := by
  induction ls with
  | nil => exact fun c hc => (nomatch hc)
  | cons l ls ih =>
    rw [chars_cons]
    exact List.forall_mem_append.mpr ⟨h.1.not_isStray, ih h.2.2⟩

/-- Punctuation begins a lexeme, whatever comes after it. -/
theorem read?_ne_none_of_mem_reserved {c : Char} (h : c ∈ reserved) (cs : List Char) : read? (c :: cs) ≠ none := by
  have hc : c = '(' ∨ c = ')' ∨ c = '!' ∨ c = '=' ∨ c = ',' := by simpa [reserved] using h
  unfold read?
  split
  case h_8 hopening hclosing hcomma _ hbang _ hequals =>
    rcases hc with rfl | rfl | rfl | rfl | rfl
    · exact absurd rfl (hopening cs)
    · exact absurd rfl (hclosing cs)
    · exact absurd rfl (hbang cs)
    · exact absurd rfl (hequals cs)
    · exact absurd rfl (hcomma cs)
  all_goals exact Option.some_ne_none _

/-- A text begins with no lexeme exactly if its first character is stray. -/
theorem read?_eq_none_iff {c : Char} {cs : List Char} : read? (c :: cs) = none ↔ isStray c := by
  by_cases hc : c ∈ reserved
  · simp [isStray_of_mem_reserved hc, read?_ne_none_of_mem_reserved hc]
  · have hblank : blanks? (c :: cs) = none ↔ isBlank c = false := by simp [blanks?, run?_eq_none_iff]
    have hword : word? (c :: cs) = none ↔ isLabelChar c = false := by simp [word?, run?_eq_none_iff]
    have hrun : readRun? (c :: cs) = none ↔ blanks? (c :: cs) = none ∧ word? (c :: cs) = none := by
      unfold readRun?
      split <;> simp [*]
    rw [read?_eq_readRun? hc, hrun, hblank, hword, isStray_iff]
    simp [hc]

/-- The lexemes of a text make up what comes before its first stray character, and that character and all after it are
left. -/
theorem chars_split (cs : List Char) :
    chars (split cs).1 = cs.takeWhile (fun c => !isStray c) ∧ (split cs).2 = cs.dropWhile fun c => !isStray c := by
  rcases hsplit : split cs with ⟨ls, left⟩
  obtain ⟨rfl, hchain, hnone⟩ := split_eq_iff.mp hsplit
  have hbefore : ∀ c ∈ chars ls, !isStray c := fun c hc => by simp [hchain.not_isStray c hc]
  rw [List.takeWhile_append_of_pos hbefore, List.dropWhile_append_of_pos hbefore]
  cases left with
  | nil => simp
  | cons c left =>
    have hstray : isStray c := read?_eq_none_iff.mp hnone
    simp [hstray]

end Lexeme

/-! ## Texts -/

/-- The first stray character is the first that is left when all before it are dropped. -/
theorem StrayCharacter.isFirstOf_iff {e : StrayCharacter} {text : String} :
    e.IsFirstOf text ↔ ∃ after, text.toList.dropWhile (fun c => !isStray c) = e.found :: after ∧
      e.offset = byteLength (text.toList.takeWhile fun c => !isStray c) := by
  constructor
  · rintro ⟨before, after, htext, hoffset, hstray, hbefore⟩
    have hbefore : ∀ c ∈ before, !isStray c := fun c hc => by simp [hbefore c hc]
    rw [htext, List.takeWhile_append_of_pos hbefore, List.dropWhile_append_of_pos hbefore]
    exact ⟨after, by simp [hstray], by simp [hstray, hoffset]⟩
  · rintro ⟨after, hleft, hoffset⟩
    refine ⟨_, after, ?_, hoffset, ?_, ?_⟩
    · rw [← hleft, List.takeWhile_append_dropWhile]
    · have hhead := List.head?_dropWhile_not (fun c => !isStray c) text.toList
      rw [hleft] at hhead
      simpa using hhead
    · simpa using List.all_eq_true.mp (List.all_takeWhile (l := text.toList) (p := fun c => !isStray c))

/-- A text has a first stray character if it has any. -/
theorem StrayCharacter.exists_isFirstOf_iff {text : String} :
    (∃ e : StrayCharacter, e.IsFirstOf text) ↔ ∃ c ∈ text.toList, isStray c := by
  constructor
  · rintro ⟨e, before, after, htext, _, hstray, _⟩
    exact ⟨e.found, by simp [htext], hstray⟩
  · rintro ⟨c, hc, hstray⟩
    cases hleft : text.toList.dropWhile fun c => !isStray c with
    | nil =>
      have hnone := List.dropWhile_eq_nil_iff.mp hleft c hc
      simp [hstray] at hnone
    | cons d after => exact ⟨⟨_, d⟩, StrayCharacter.isFirstOf_iff.mpr ⟨after, hleft, rfl⟩⟩

/-- The lexer stops exactly at the first stray character. -/
theorem tokenize_eq_error_iff_isFirstOf {text : String} {e : StrayCharacter} :
    tokenize text = .error e ↔ e.IsFirstOf text := by
  obtain ⟨hchars, hleft⟩ := Lexeme.chars_split text.toList
  rw [StrayCharacter.isFirstOf_iff, ← hchars, ← hleft]
  unfold tokenize
  split
  next ls hsplit => simp [hsplit]
  next ls c rest hsplit =>
    rw [hsplit]
    constructor
    · rintro ⟨⟩
      exact ⟨rest, rfl, rfl⟩
    · rintro ⟨after, hcons, hoffset⟩
      obtain ⟨rfl, rfl⟩ := List.cons.inj hcons
      rw [← hoffset]

/-- **Only stray characters stop the lexer.** A text has no tokens exactly if some character of it is stray, and then the
first such character is reported, with the bytes before it. -/
theorem tokenize_eq_error_iff (text : String) :
    ((∃ e, tokenize text = .error e) ↔ ∃ c ∈ text.toList, isStray c) ∧
    ∀ e, tokenize text = .error e ↔ e.IsFirstOf text := by
  simp only [tokenize_eq_error_iff_isFirstOf, StrayCharacter.exists_isFirstOf_iff, implies_true, and_self]

end LabelFilter
