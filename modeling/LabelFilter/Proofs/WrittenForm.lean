import LabelFilter.Proofs.Reading

/-!
# The written form as lexemes

An expression is written as a phrase: names and values as words, one value after its sign and more in a list. So the
lexemes of the written form are known in advance (`Phrase.lexemes`, `lexemes`). They make up the text
(`chars_lexemes`), they stand for the leaves of the derivation (`terminals_lexemes`), and if names and values are
labels, each of them ends where the next begins (`chain_lexemes`).
-/

namespace LabelFilter

open Text Grammar

/-! ## Lexemes that are written -/

namespace Lexeme

/-- How a kind is written that carries no text. A blank is one space. -/
def spelling : TokenKind → List Char
  | .blank => [' ']
  | .opening => ['(']
  | .closing => [')']
  | .equals => ['=']
  | .differs => ['!', '=']
  | .bang => ['!']
  | .isIn => ['i', 'n']
  | .notIn => ['n', 'o', 't', 'i', 'n']
  | .comma => [',']
  | .label => []

def mark (kind : TokenKind) : Lexeme := ⟨kind, spelling kind⟩

def ofLabel (text : String) : Lexeme := ⟨.label, text.toList⟩

theorem proper_mark {kind : TokenKind} (h : kind ≠ .label) : (mark kind).Proper := by
  cases kind
  case blank => exact .blanks (List.cons_ne_nil _ _) (List.all_eq_true.mp rfl)
  case isIn => exact @Proper.word ['i', 'n'] ⟨List.cons_ne_nil _ _, List.all_eq_true.mp rfl⟩
  case notIn => exact @Proper.word ['n', 'o', 't', 'i', 'n'] ⟨List.cons_ne_nil _ _, List.all_eq_true.mp rfl⟩
  case label => exact absurd rfl h
  case opening => exact .opening
  case closing => exact .closing
  case comma => exact .comma
  case differs => exact .differs
  case bang => exact .bang
  case equals => exact .equals

theorem proper_ofLabel {text : String} (h : isLabel text) : (ofLabel text).Proper := by
  obtain ⟨hword, hkeyword⟩ := isLabel_iff.mp h
  have hkind : wordKind text.toList = .label := by rw [wordKind, hkeyword]
  have hproper : Proper ⟨wordKind text.toList, text.toList⟩ := .word hword
  rwa [hkind] at hproper

@[simp] theorem terminal?_ofLabel (text : String) : (ofLabel text).terminal? = some (.label text) := by
  simp [terminal?, ofLabel]

@[simp] theorem terminal?_blank : (mark .blank).terminal? = none := rfl

@[simp] theorem terminal?_mark {kind : TokenKind} (hblank : kind ≠ .blank) (hlabel : kind ≠ .label) :
    (mark kind).terminal? = some (.mark kind) := by
  cases kind
  case blank => exact absurd rfl hblank
  case label => exact absurd rfl hlabel
  all_goals rfl

/-- Every lexeme that is no blank ends before a space. -/
theorem endsBefore_space {l : Lexeme} (h : l.kind ≠ .blank) (rest : List Char) : l.EndsBefore (' ' :: rest) :=
  endsBefore_of_not_isLabelChar (by decide) (by decide) (fun hblank => absurd hblank h) rest

/-- Every lexeme that is no word ends before a label. -/
theorem endsBefore_ofLabel {l : Lexeme} {text : String} (hl : l.kind ∉ [.isIn, .notIn, .label]) (h : isLabel text)
    (ls : List Lexeme) (left : List Char) : l.EndsBefore (chars (ofLabel text :: ls) ++ left) := by
  rw [chars_cons, List.append_assoc]
  exact endsBefore_word hl (isLabel_iff.mp h).1 _

/-! ## Items between commas -/

/-- The items with a comma and a space before each. -/
def following (items : List (List Lexeme)) : List Lexeme := items.flatMap fun i => mark .comma :: mark .blank :: i

/-- The items with a comma and a space between them. -/
def separated : List (List Lexeme) → List Lexeme
  | [] => []
  | item :: items => item ++ following items

/-- Pieces with a separator between them are the first, and the others with the separator before each. -/
theorem intercalate_cons_eq {α : Type} (sep x : List α) (xs : List (List α)) :
    sep.intercalate (x :: xs) = x ++ xs.flatMap (sep ++ ·) := by
  induction xs generalizing x with
  | nil => simp
  | cons y ys ih => rw [List.intercalate_cons_cons, ih, List.flatMap_cons, List.append_assoc, List.append_assoc]

theorem chars_separated (items : List (List Lexeme)) :
    chars (separated items) = [',', ' '].intercalate (items.map chars) := by
  cases items with
  | nil => rfl
  | cons item items =>
    have hfollowing : chars (following items) = items.flatMap fun i => [',', ' '] ++ chars i := List.flatMap_assoc
    rw [List.map_cons, intercalate_cons_eq, separated, chars_append, List.flatMap_map, hfollowing]

theorem terminals_separated (item : List Lexeme) (items : List (List Lexeme)) :
    (separated (item :: items)).filterMap terminal? =
      item.filterMap terminal? ++ items.flatMap fun i => .mark .comma :: i.filterMap terminal? := by
  rw [separated, following, List.filterMap_append, List.filterMap_flatMap]
  rfl

/-- A word ends before the text. -/
def Breaks (left : List Char) : Prop := ∀ c ∈ left.head?, isLabelChar c = false

theorem breaks_cons {c : Char} (h : isLabelChar c = false) (left : List Char) : Breaks (c :: left) := by
  intro d hd
  rwa [← Option.some.inj hd]

/-- The item may stand between commas: a blank ends before it, and its lexemes follow one another up to where a word
ends. -/
def Separable (item : List Lexeme) : Prop :=
  ∀ left, Breaks left → (mark .blank).EndsBefore (chars item ++ left) ∧ Chain item left

theorem separable_ofLabel {text : String} (h : isLabel text) : Separable [ofLabel text] := fun left hleft =>
  ⟨endsBefore_ofLabel (by decide) h [] left, proper_ofLabel h, hleft, trivial⟩

theorem chain_following {items : List (List Lexeme)} (hitems : ∀ item ∈ items, Separable item) {left : List Char}
    (hleft : Breaks left) : Breaks (chars (following items) ++ left) ∧ Chain (following items) left := by
  induction items with
  | nil => exact ⟨hleft, trivial⟩
  | cons item items ih =>
    obtain ⟨hitem, hitems⟩ := List.forall_mem_cons.mp hitems
    obtain ⟨hbreaks, hchain⟩ := ih hitems
    obtain ⟨hends, hitem⟩ := hitem _ hbreaks
    have hfollowing : following (item :: items) = mark .comma :: mark .blank :: (item ++ following items) := by
      rw [following, List.flatMap_cons]
      rfl
    rw [hfollowing]
    constructor
    · exact breaks_cons (by decide) _
    · rw [chain_cons, chain_cons, chain_append, chars_append, List.append_assoc]
      exact ⟨proper_mark (by decide), fun c _ => rfl, proper_mark (by decide), hends, hitem, hchain⟩

/-- Items that may stand between commas follow one another with commas between them. -/
theorem chain_separated {items : List (List Lexeme)} (hitems : ∀ item ∈ items, Separable item) {left : List Char}
    (hleft : Breaks left) : Chain (separated items) left := by
  cases items with
  | nil => trivial
  | cons item items =>
    obtain ⟨hitem, hitems⟩ := List.forall_mem_cons.mp hitems
    obtain ⟨hbreaks, hchain⟩ := chain_following hitems hleft
    exact chain_append.mpr ⟨(hitem _ hbreaks).2, hchain⟩

/-- A name and a keyword or sign, with spaces around it. -/
theorem chain_name {name : String} {kind : TokenKind} {ls : List Lexeme} {left : List Char} (hname : isLabel name)
    (hkind : kind ∈ [.isIn, .notIn, .equals, .differs]) (hends : (mark .blank).EndsBefore (chars ls ++ left))
    (hchain : Chain ls left) : Chain (ofLabel name :: mark .blank :: mark kind :: mark .blank :: ls) left := by
  have hlabel : kind ≠ .label := fun h => absurd hkind (by rw [h]; decide)
  have hblank : kind ≠ .blank := fun h => absurd hkind (by rw [h]; decide)
  have hspace : (mark .blank).EndsBefore (chars (mark kind :: mark .blank :: ls) ++ left) := by
    simp only [List.mem_cons, List.not_mem_nil, or_false] at hkind
    rcases hkind with rfl | rfl | rfl | rfl <;> exact endsBefore_cons.mpr (by decide)
  exact ⟨proper_ofLabel hname, endsBefore_space (by simp [ofLabel]) _, proper_mark (by decide), hspace,
    proper_mark hlabel, endsBefore_space hblank _, proper_mark (by decide), hends, hchain⟩

end Lexeme

open Lexeme

namespace Grammar

/-! ## Phrases that are written -/

/-- The lexemes of a written phrase. -/
def Phrase.lexemes : Phrase → List Lexeme
  | listed name side first more =>
    ofLabel name :: mark .blank :: mark side.keyword :: mark .blank :: mark .opening ::
      (separated ((first :: more).map fun v => [ofLabel v]) ++ [mark .closing])
  | compared name side value => [ofLabel name, mark .blank, mark side.sign, mark .blank, ofLabel value]
  | absent name => [mark .bang, ofLabel name]
  | present name => [ofLabel name]

/-- The lexemes of a written selector. -/
def lexemes (ps : List Phrase) : List Lexeme := separated (ps.map Phrase.lexemes)

/-- The phrase is how its expression is written: one value is not listed. -/
def Phrase.Canonical : Phrase → Prop
  | listed _ _ _ more => more ≠ []
  | compared .. | absent _ | present _ => True

/-- The lexemes of a written phrase make up the text of its expression. -/
theorem Phrase.chars_lexemes {p : Phrase} (h : p.Canonical) : chars p.lexemes = p.expression.text.toList := by
  cases p with
  | listed name side first more =>
    obtain ⟨second, more, rfl⟩ := List.exists_cons_of_ne_nil h
    have hvalues : chars (separated ((first :: second :: more).map fun v => [ofLabel v])) =
        (", ".intercalate (first :: second :: more)).toList := by
      rw [chars_separated, String.toList_intercalate, List.map_map]
      exact congrArg _ (List.map_congr_left fun v _ => List.append_nil _)
    simp only [lexemes, chars_cons, chars_append, hvalues]
    cases side <;> simp [expression, Expression.text, Side.operator, Side.keyword, mark, ofLabel, spelling]
  | compared name side value =>
    cases side <;> simp [lexemes, expression, Expression.text, Side.operator, Side.sign, mark, ofLabel, spelling]
  | absent name => simp [lexemes, expression, Expression.text, Expression.absent, mark, ofLabel, spelling]
  | present name => simp [lexemes, expression, Expression.text, Expression.present, ofLabel]

/-- The lexemes of written phrases make up the text of their selector. -/
theorem chars_lexemes {ps : List Phrase} (h : ∀ p ∈ ps, p.Canonical) :
    chars (lexemes ps) = (Selector.text ⟨ps.map Phrase.expression⟩).toList := by
  rw [lexemes, chars_separated, Selector.text, String.toList_intercalate]
  simp only [List.map_map]
  exact congrArg _ (List.map_congr_left fun p hp => p.chars_lexemes (h p hp))

theorem Phrase.terminals_lexemes (p : Phrase) : p.lexemes.filterMap terminal? = p.terminals := by
  cases p with
  | listed name side first more =>
    have hvalues : (separated ([ofLabel first] :: more.map fun v => [ofLabel v])).filterMap terminal? =
        valueTerminals first more := by
      rw [terminals_separated, List.flatMap_map]
      simp [valueTerminals]
    cases side <;> simp [lexemes, terminals, List.filterMap_cons, hvalues, Side.keyword]
  | compared name side value => cases side <;> simp [lexemes, terminals, List.filterMap_cons, Side.sign]
  | absent name => simp [lexemes, terminals]
  | present name => simp [lexemes, terminals]

/-- The lexemes of written phrases stand for their leaves. -/
theorem terminals_lexemes (ps : List Phrase) : (lexemes ps).filterMap terminal? = terminals ps := by
  cases ps with
  | nil => rfl
  | cons p ps =>
    rw [lexemes, List.map_cons, terminals_separated, List.flatMap_map, p.terminals_lexemes, terminals]
    simp only [Phrase.terminals_lexemes]

/-- The names and values of the phrase are labels. -/
def Phrase.Labelled : Phrase → Prop
  | listed name _ first more => isLabel name ∧ ∀ v ∈ first :: more, isLabel v
  | compared name _ value => isLabel name ∧ isLabel value
  | absent name | present name => isLabel name

/-- The lexemes of a phrase of labels follow one another. -/
theorem Phrase.separable_lexemes {p : Phrase} (h : p.Labelled) : Separable p.lexemes := by
  intro left hleft
  cases p with
  | listed name side first more =>
    have hlist : Chain (separated ((first :: more).map fun v => [ofLabel v])) (chars [mark .closing] ++ left) := by
      refine chain_separated ?_ (breaks_cons (by decide) _)
      intro item hitem
      obtain ⟨v, hv, rfl⟩ := List.mem_map.mp hitem
      exact separable_ofLabel (h.2 v hv)
    have hclosing : Chain [mark .closing] left := ⟨proper_mark (by decide), fun c _ => rfl, trivial⟩
    have hkeyword : side.keyword ∈ [.isIn, .notIn, .equals, .differs] := by cases side <;> decide
    refine ⟨endsBefore_ofLabel (by decide) h.1 _ _, chain_name h.1 hkeyword ?_ ?_⟩
    · exact endsBefore_cons.mpr (by decide)
    · exact ⟨proper_mark (by decide), fun c _ => rfl, chain_append.mpr ⟨hlist, hclosing⟩⟩
  | compared name side value =>
    obtain ⟨hends, hvalue⟩ := separable_ofLabel h.2 left hleft
    have hsign : side.sign ∈ [.isIn, .notIn, .equals, .differs] := by cases side <;> decide
    exact ⟨endsBefore_ofLabel (by decide) h.1 _ _, chain_name h.1 hsign hends hvalue⟩
  | absent name =>
    have hname := (separable_ofLabel h left hleft).2
    exact ⟨endsBefore_cons.mpr (by decide), proper_mark (by decide), endsBefore_ofLabel (by decide) h [] left, hname⟩
  | present name => exact separable_ofLabel h left hleft

/-- The lexemes of phrases of labels follow one another. -/
theorem chain_lexemes {ps : List Phrase} (h : ∀ p ∈ ps, p.Labelled) : Chain (lexemes ps) [] := by
  refine chain_separated ?_ fun c hc => (nomatch hc)
  intro item hitem
  obtain ⟨p, hp, rfl⟩ := List.mem_map.mp hitem
  exact p.separable_lexemes (h p hp)

end Grammar

end LabelFilter
