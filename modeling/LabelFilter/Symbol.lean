import LabelFilter.Token

/-!
# Symbols of the grammar

A symbol is a kind of token or the end of the input. Diagnostics list the symbols that a selector could have gone on
with, in the order of the grammar.
-/

namespace LabelFilter

inductive Symbol
  | token (kind : TokenKind)
  | ending
  deriving DecidableEq, Repr

namespace Symbol

def describe : Symbol → String
  | token kind => kind.describe
  | ending => "end of input"

/-- A list of alternatives in words: commas between them, and "or" before the last. -/
def describeAll : List Symbol → String
  | [] => "nothing"
  | [s] => s.describe
  | [s, last] => s.describe ++ " or " ++ last.describe
  | s :: rest => s.describe ++ ", " ++ describeAll rest

end Symbol

end LabelFilter
