import LabelFilter.Grammar

/-!
# Derivations of selectors

```text
selector   := ε | expression ("," expression)*
expression := name "in" list | name "notin" list | name "=" value | name "!=" value | "!" name | name
list       := "(" value ("," value)* ")"
```

A `Phrase` is a derivation of an expression, and a list of phrases a derivation of a selector, of which no phrases
derive the empty one. `terminals` are the leaves of a derivation and `Phrase.expression` is how a phrase reads.
Two phrases may read alike: `a = b` and `a in (b)` do.
-/

namespace LabelFilter

namespace Grammar

/-- What the grammar sees of a token: its kind, and the text of a label. -/
structure Terminal where
  kind : TokenKind
  text : String
  deriving DecidableEq, Repr

namespace Terminal

def label (text : String) : Terminal := ⟨.label, text⟩

/-- A token that carries no text. -/
def mark (kind : TokenKind) : Terminal := ⟨kind, ""⟩

@[simp] theorem kind_label (text : String) : (label text).kind = .label := rfl

@[simp] theorem kind_mark (kind : TokenKind) : (mark kind).kind = kind := rfl

end Terminal

end Grammar

open Grammar

/-- The terminal of a token. A label without text is the empty label, and no other kind shows its text. -/
def Token.terminal (t : Token) : Terminal := if t.kind = .label then .label t.label else .mark t.kind

@[simp] theorem Token.kind_terminal (t : Token) : t.terminal.kind = t.kind := by
  unfold Token.terminal
  split
  next h => exact h.symm
  next => rfl

namespace Grammar

/-- Whether an expression asks for its values or against them. -/
inductive Side
  | inside
  | outside
  deriving DecidableEq, Repr

namespace Side

/-- The word before a list. -/
def keyword : Side → TokenKind
  | inside => .isIn
  | outside => .notIn

/-- The sign before a value. -/
def sign : Side → TokenKind
  | inside => .equals
  | outside => .differs

def operator : Side → Operator
  | inside => .oneOf
  | outside => .noneOf

end Side

/-- A derivation of an expression. -/
inductive Phrase
  /-- A name, a keyword and a list of values, of which there is a first. -/
  | listed (name : String) (side : Side) (first : String) (more : List String)
  /-- A name, a sign and a value. -/
  | compared (name : String) (side : Side) (value : String)
  | absent (name : String)
  | present (name : String)
  deriving DecidableEq, Repr

/-- The leaves of `value ("," value)*`. -/
def valueTerminals (first : String) (more : List String) : List Terminal :=
  .label first :: more.flatMap fun v => [.mark .comma, .label v]

namespace Phrase

/-- The leaves of a phrase. -/
def terminals : Phrase → List Terminal
  | listed name side first more =>
    .label name :: .mark side.keyword :: .mark .opening :: (valueTerminals first more ++ [.mark .closing])
  | compared name side value => [.label name, .mark side.sign, .label value]
  | absent name => [.mark .bang, .label name]
  | present name => [.label name]

/-- The expression that a phrase reads as. -/
def expression : Phrase → Expression
  | listed name side first more => ⟨name, side.operator, first :: more⟩
  | compared name side value => ⟨name, side.operator, [value]⟩
  | absent name => .absent name
  | present name => .present name

end Phrase

/-- The leaves of a derivation of a selector. -/
def terminals : List Phrase → List Terminal
  | [] => []
  | p :: ps => p.terminals ++ ps.flatMap fun q => .mark .comma :: q.terminals

@[simp] theorem terminals_nil : terminals [] = [] := rfl

@[simp] theorem terminals_singleton (p : Phrase) : terminals [p] = p.terminals := by simp [terminals]

theorem terminals_cons (p : Phrase) {ps : List Phrase} (h : ps ≠ []) :
    terminals (p :: ps) = p.terminals ++ .mark .comma :: terminals ps := by
  obtain ⟨q, qs, rfl⟩ := List.exists_cons_of_ne_nil h
  simp [terminals]

/-- No phrase derives nothing. -/
theorem Phrase.terminals_ne_nil (p : Phrase) : p.terminals ≠ [] := by
  cases p <;> simp [Phrase.terminals]

/-- Only the derivation without phrases derives nothing. -/
theorem terminals_eq_nil_iff {ps : List Phrase} : terminals ps = [] ↔ ps = [] := by
  cases ps with
  | nil => simp
  | cons p ps => simp [terminals, p.terminals_ne_nil]

/-- The leaves of a phrase are leaves of the whole derivation. -/
theorem mem_terminals {p : Phrase} {ps : List Phrase} {x : Terminal} (hp : p ∈ ps) (hx : x ∈ p.terminals) :
    x ∈ terminals ps := by
  cases ps with
  | nil => cases hp
  | cons q qs =>
    rcases List.mem_cons.mp hp with rfl | hp
    · exact List.mem_append_left _ hx
    · exact List.mem_append_right _ (List.mem_flatMap.mpr ⟨p, hp, List.mem_cons_of_mem _ hx⟩)

end Grammar

end LabelFilter
