/-!
# Tokens

A token is what the grammar reads: a kind, the text that it carries if it is a label, and the position in bytes of
its first character. Blanks have a kind, because they are lexemes, but they are never tokens of a text.
-/

namespace LabelFilter

/-- What a lexeme is. -/
inductive TokenKind
  | blank
  | opening
  | closing
  | equals
  | differs
  | bang
  | isIn
  | notIn
  | comma
  | label
  deriving DecidableEq, Repr

/-- How messages name a kind. -/
def TokenKind.describe : TokenKind → String
  | blank => "whitespace"
  | opening => "`(`"
  | closing => "`)`"
  | equals => "`=`"
  | differs => "`!=`"
  | bang => "`!`"
  | isIn => "`in`"
  | notIn => "`notin`"
  | comma => "`,`"
  | label => "label"

structure Token where
  kind : TokenKind
  /-- The text of a label. -/
  text : Option String
  /-- The bytes before the token. -/
  offset : Nat
  deriving DecidableEq, Repr

namespace Token

/-- A token is shown as its text, or as its kind when it carries none. -/
def describe (t : Token) : String := t.text.getD t.kind.describe

/-- The label that the token stands for. A label token without text stands for the empty label. -/
def label (t : Token) : String := t.text.getD ""

end Token

end LabelFilter
