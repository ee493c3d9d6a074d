import LabelFilter.Label
import LabelFilter.Text.Bytes
import LabelFilter.Token

/-!
# Lexemes

`Lexeme.read?` reads the lexeme at the start of a text: a run of blanks, punctuation (the longer one first, so `!=`
is no `!`), or a word, which is a keyword or a label. `Lexeme.split` cuts a text into lexemes up to the first
character that begins none; `Lexeme.place` turns lexemes into tokens with their positions and drops the blanks.
-/

namespace LabelFilter

open Text

structure Lexeme where
  kind : TokenKind
  text : List Char
  deriving DecidableEq, Repr

namespace Lexeme

/-- The kind of a word. -/
def wordKind (word : List Char) : TokenKind :=
  match Keyword.ofWord? word with
  | some .isIn => .isIn
  | some .notIn => .notIn
  | none => .label

/-- A run of blanks or a word, by the class of the first character. -/
def readRun? (cs : List Char) : Option (Lexeme × List Char) :=
  match blanks? cs, word? cs with
  | some (taken, rest), _ => some (⟨.blank, taken⟩, rest)
  | none, some (word, rest) => some (⟨wordKind word, word⟩, rest)
  | none, none => none

/-- The lexeme at the start of a text, and what follows it. -/
def read? : List Char → Option (Lexeme × List Char)
  | '(' :: rest => some (⟨.opening, ['(']⟩, rest)
  | ')' :: rest => some (⟨.closing, [')']⟩, rest)
  | ',' :: rest => some (⟨.comma, [',']⟩, rest)
  | '!' :: '=' :: rest => some (⟨.differs, ['!', '=']⟩, rest)
  | '!' :: rest => some (⟨.bang, ['!']⟩, rest)
  | '=' :: '=' :: rest => some (⟨.equals, ['=', '=']⟩, rest)
  | '=' :: rest => some (⟨.equals, ['=']⟩, rest)
  | cs => readRun? cs

theorem readRun?_append {cs rest : List Char} {l : Lexeme} (h : readRun? cs = some (l, rest)) :
    cs = l.text ++ rest ∧ l.text ≠ [] := by
  unfold readRun? at h
  split at h
  next taken rest' hb =>
    simp only [Option.some.injEq, Prod.mk.injEq] at h
    rw [← h.1, ← h.2]
    exact ⟨run?_append hb, run?_ne_nil hb⟩
  next word rest' _ hw =>
    simp only [Option.some.injEq, Prod.mk.injEq] at h
    rw [← h.1, ← h.2]
    exact ⟨run?_append hw, run?_ne_nil hw⟩
  next => cases h

/-- A lexeme is not empty, and what follows it is the rest of the text. -/
theorem read?_append {cs rest : List Char} {l : Lexeme} (h : read? cs = some (l, rest)) :
    cs = l.text ++ rest ∧ l.text ≠ [] := by
  unfold read? at h
  split at h
  all_goals first
    | exact readRun?_append h
    | (simp only [Option.some.injEq, Prod.mk.injEq] at h; rw [← h.1, ← h.2]; exact ⟨rfl, by simp⟩)

theorem read?_length {cs rest : List Char} {l : Lexeme} (h : read? cs = some (l, rest)) :
    rest.length < cs.length := by
  obtain ⟨happ, hne⟩ := read?_append h
  have hpos := List.length_pos_iff.mpr hne
  simp only [happ, List.length_append]
  omega

/-- The lexemes of a text, and what is left from the first character that begins no lexeme. -/
def split (cs : List Char) : List Lexeme × List Char :=
  match h : read? cs with
  | none => ([], cs)
  | some (l, rest) =>
    have := read?_length h
    let (ls, left) := split rest
    (l :: ls, left)
termination_by cs.length

/-- The characters of a list of lexemes. -/
def chars (ls : List Lexeme) : List Char := ls.flatMap text

/-- The tokens of lexemes that start at `offset`: blanks are dropped, and only labels carry their text. -/
def place (offset : Nat) : List Lexeme → List Token
  | [] => []
  | l :: ls =>
    let later := place (offset + byteLength l.text) ls
    match l.kind with
    | .blank => later
    | .label => ⟨.label, some (String.ofList l.text), offset⟩ :: later
    | kind => ⟨kind, none, offset⟩ :: later

end Lexeme

end LabelFilter
