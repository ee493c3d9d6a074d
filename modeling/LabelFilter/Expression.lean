import LabelFilter.Label
import LabelFilter.Text.Quoted

/-!
# Expressions

An expression asks one thing of one label: that its value is one of a list, that it is none of a list, that the
label is there, or that it is not. The type admits any text as a name or a value and any number of values;
`Expression.defect?` tells which of them can be written down and read back.
-/

namespace LabelFilter

inductive Operator
  /-- The label has one of the values. -/
  | oneOf
  /-- The label has none of the values. -/
  | noneOf
  /-- The label is there. -/
  | present
  /-- The label is not there. -/
  | absent
  deriving DecidableEq, Repr

namespace Operator

/-- The operator compares with a list of values. -/
def takesValues : Operator → Bool
  | oneOf | noneOf => true
  | present | absent => false

def isNegative : Operator → Bool
  | noneOf | absent => true
  | oneOf | present => false

end Operator

/-- One condition on one label. The order of the values counts for equality, though not for matching. -/
structure Expression where
  name : String
  operator : Operator
  values : List String
  deriving DecidableEq, Repr

/-- Why an expression cannot be written down and read back. -/
inductive Defect
  /-- The name or a value is no label. -/
  | notALabel (text : String)
  /-- The operator compares with values and there are none. -/
  | noValues (name : String)
  deriving DecidableEq, Repr

def Defect.message : Defect → String
  | notALabel text => Text.quoteString text ++ " is not a valid label"
  | noValues name => "`" ++ name ++ "` needs at least one value"

namespace Expression

/-- The label has exactly this value. -/
def exact (name value : String) : Expression := ⟨name, .oneOf, [value]⟩

/-- The label does not have this value. -/
def notExact (name value : String) : Expression := ⟨name, .noneOf, [value]⟩

def present (name : String) : Expression := ⟨name, .present, []⟩

def absent (name : String) : Expression := ⟨name, .absent, []⟩

/-- The value of an expression that asks for exactly one. -/
def exactValue? (e : Expression) : Option String :=
  match e.operator, e.values with
  | .oneOf, [value] => some value
  | _, _ => none

def isExact (e : Expression) : Bool := e.exactValue?.isSome

/-- The written form. One value is compared with `=` or `!=`, any other number is listed. -/
def text (e : Expression) : String :=
  match e.operator, e.values with
  | .present, _ => e.name
  | .absent, _ => "!" ++ e.name
  | .oneOf, [value] => e.name ++ " = " ++ value
  | .noneOf, [value] => e.name ++ " != " ++ value
  | .oneOf, values => e.name ++ " in (" ++ ", ".intercalate values ++ ")"
  | .noneOf, values => e.name ++ " notin (" ++ ", ".intercalate values ++ ")"

/-- What keeps the written form from being read back: first a name or value that is no label, then a missing
value. -/
def defect? (e : Expression) : Option Defect :=
  match (e.name :: e.values).find? fun text => !isLabel text with
  | some text => some (.notALabel text)
  | none => if e.operator.takesValues && e.values.isEmpty then some (.noValues e.name) else none

end Expression

end LabelFilter
