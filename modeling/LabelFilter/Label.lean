import LabelFilter.Text.CharClass

/-!
# Labels

The names and the values of labels share one written form: a run of characters other than blanks, control
characters and the reserved punctuation. The words `in` and `notin` are keywords and name no label, but only as
whole words, so `index` and `notinuse` are labels.
-/

namespace LabelFilter

open Text

/-- The punctuation of selectors. -/
def reserved : List Char := ['(', ')', '!', '=', ',']

/-- The character may stand in a label. -/
def isLabelChar (c : Char) : Bool := !isBlank c && !isControl c && !reserved.contains c

/-- The longest run of characters of a class at the start of a text, when it is not empty, and what follows it. -/
def run? (isMember : Char → Bool) (cs : List Char) : Option (List Char × List Char) :=
  match cs.takeWhile isMember with
  | [] => none
  | taken => some (taken, cs.dropWhile isMember)

/-- The blanks at the start of a text. -/
def blanks? : List Char → Option (List Char × List Char) := run? isBlank

/-- The word at the start of a text: the text of a label or a keyword. -/
def word? : List Char → Option (List Char × List Char) := run? isLabelChar

/-- The words that are no labels. -/
inductive Keyword
  | isIn
  | notIn
  deriving DecidableEq, Repr

namespace Keyword

def spelling : Keyword → String
  | isIn => "in"
  | notIn => "notin"

/-- The keyword that a whole word spells. -/
def ofWord? (word : List Char) : Option Keyword :=
  if word = notIn.spelling.toList then some notIn
  else if word = isIn.spelling.toList then some isIn
  else none

/-- The keyword at the start of a text, which must be the whole word there. -/
def read? (cs : List Char) : Option (Keyword × List Char) :=
  match word? cs with
  | none => none
  | some (word, rest) => (ofWord? word).map (·, rest)

end Keyword

/-- The text is a label: a word that is no keyword, and nothing else. -/
def isLabel (text : String) : Bool :=
  match word? text.toList with
  | some (word, []) => (Keyword.ofWord? word).isNone
  | _ => false

/-! ## Runs -/

/-- A run and what follows it make up the text. -/
theorem run?_append {isMember : Char → Bool} {cs taken rest : List Char} (h : run? isMember cs = some (taken, rest)) :
    cs = taken ++ rest := by
  unfold run? at h
  split at h
  · cases h
  · simp only [Option.some.injEq, Prod.mk.injEq] at h
    rw [← h.1, ← h.2, List.takeWhile_append_dropWhile]

/-- A run is not empty. -/
theorem run?_ne_nil {isMember : Char → Bool} {cs taken rest : List Char} (h : run? isMember cs = some (taken, rest)) :
    taken ≠ [] := by
  unfold run? at h
  split at h
  · cases h
  next hne =>
    simp only [Option.some.injEq, Prod.mk.injEq] at h
    rw [← h.1]
    exact hne

end LabelFilter
