/-!
# Patterns of LIKE

In a pattern, `%` stands for any text and `_` for any character, and a backslash makes the next character stand for
itself.
-/

namespace LabelFilter.Sql

/-- The character means something other than itself in a pattern. -/
def isWildcard (c : Char) : Bool := c == '\\' || c == '%' || c == '_'

/-- The pattern that a text alone matches. -/
def likeEscape (s : String) : String :=
  String.ofList (s.toList.flatMap fun c => if isWildcard c then ['\\', c] else [c])

end LabelFilter.Sql
