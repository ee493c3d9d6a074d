import LabelFilter.Selector

/-!
# Building selectors

A selector is built by calls. Each asks one thing of one label, and adds the expression for it at the end if that can be
written down and read back. A call that fails leaves the selector as it was, and building may go on after it.
-/

namespace LabelFilter.Selector

/-- A call for one more expression. -/
inductive Call
  /-- The label has one of the values. -/
  | isIn (name : String) (values : List String)
  /-- The label has none of the values. -/
  | notIn (name : String) (values : List String)
  /-- The label has exactly this value. -/
  | exact (name value : String)
  /-- The label does not have this value. -/
  | notExact (name value : String)
  | present (name : String)
  | absent (name : String)
  deriving DecidableEq, Repr

/-- The expression that a call asks for. -/
def Call.expression : Call → Expression
  | isIn name values => ⟨name, .oneOf, values⟩
  | notIn name values => ⟨name, .noneOf, values⟩
  | exact name value => .exact name value
  | notExact name value => .notExact name value
  | present name => .present name
  | absent name => .absent name

/-- The selector after a call, with the defect if the call fails. -/
def call (s : Selector) (c : Call) : Selector × Option Defect := s.addAll [c.expression]

/-- The selector after a list of calls, any of which may fail. -/
def build (s : Selector) (calls : List Call) : Selector := calls.foldl (fun s c => (s.call c).1) s

end LabelFilter.Selector
