import LabelFilter.LabelSet
import LabelFilter.Text.Cut

/-!
# Delimited labels

A label can be one string: its name, a delimiter and its value, or the name alone for a label without a value.
`Delimited.split` cuts such a string at the first delimiter. The label set of a list of such strings does not cut
them: it looks for the name at the front of a string and for the delimiter behind the name, so that names may hold
the delimiter.
-/

namespace LabelFilter.Delimited

/-- The delimiter that is used unless another one is asked for. -/
def defaultDelimiter : String := ":"

/-- The string of a label with a value. -/
def join (delimiter name value : String) : String := name ++ delimiter ++ value

/-- The name and the value of a label; a label without the delimiter has no value. -/
def split (delimiter label : String) : String × Option String :=
  match Text.cut? delimiter.toList label.toList with
  | some (name, value) => (String.ofList name, some (String.ofList value))
  | none => (label, none)

/-- The label has this name, with or without a value. -/
def isNamed (delimiter name label : String) : Bool :=
  label == name ||
    match name.toList.isPrefixOf? label.toList with
    | some rest => delimiter.toList.isPrefixOf rest
    | none => false

/-- The label has this name and this value. -/
def isPair (delimiter name value label : String) : Bool :=
  match name.toList.isPrefixOf? label.toList with
  | some rest => delimiter.toList.isPrefixOf? rest == some value.toList
  | none => false

/-- The set of the labels. -/
def labelSet (delimiter : String) (labels : List String) : LabelSet where
  hasName name := labels.any (isNamed delimiter name)
  hasPair name value := labels.any (isPair delimiter name value)

end LabelFilter.Delimited
