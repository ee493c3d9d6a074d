/-!
# Cutting text

`cut?` splits a text at the first occurrence of a separator.
-/

namespace LabelFilter.Text

/-- What stands before and after the first occurrence of a separator. The empty separator occurs at the front. -/
def cut? (separator : List Char) : List Char → Option (List Char × List Char)
  | [] => if separator.isEmpty then some ([], []) else none
  | c :: cs =>
    match separator.isPrefixOf? (c :: cs) with
    | some rest => some ([], rest)
    | none => (cut? separator cs).map fun p => (c :: p.1, p.2)

end LabelFilter.Text
