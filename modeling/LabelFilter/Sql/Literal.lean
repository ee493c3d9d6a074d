/-!
# String literals of SQL

A literal stands between single quotes, and a quote inside it is written twice. Where the backslash escapes the next
character, a backslash is written twice as well.
-/

namespace LabelFilter.Sql

/-- Which characters are special in a string literal. -/
inductive Quoting
  /-- The quote alone, as the standard has it. -/
  | standard
  /-- The quote, and the backslash, which escapes. -/
  | backslash
  deriving DecidableEq, Repr

/-- The character is written twice. -/
def Quoting.isSpecial : Quoting → Char → Bool
  | standard, c => c == '\x27'
  | backslash, c => c == '\x27' || c == '\\'

/-- One character as it stands in a literal. -/
def literalChar (q : Quoting) (c : Char) : List Char := if q.isSpecial c then [c, c] else [c]

/-- The literal of a text. -/
def literal (q : Quoting) (s : String) : String :=
  String.ofList ('\x27' :: (s.toList.flatMap (literalChar q) ++ ['\x27']))

end LabelFilter.Sql
