import LabelFilter.Json.Reading
import LabelFilter.Selector.Reading

/-!
# Selectors as JSON

A selector is the string of its written form. One whose written form could not be read back is not written at all.
-/

namespace LabelFilter.Selector

open Json Reader

/-- The JSON text of a selector, or the first defect of its expressions. -/
def jsonText (s : Selector) : Except Defect String :=
  match s.expressions.findSome? Expression.defect? with
  | some d => .error d
  | none => .ok (stringText s.text)

def reader : Reader Selector := fun cs => do
  let (text, cs) ← Reader.string cs
  match Selector.read text with
  | .ok s => .ok (s, cs)
  | .error r => .error (.unfit (.rejected r))

/-- The selector of a JSON text. -/
def ofJsonText (text : String) : Except Fault Selector := Reader.whole reader text

end LabelFilter.Selector
