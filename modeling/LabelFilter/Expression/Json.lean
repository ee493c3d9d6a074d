import LabelFilter.Expression
import LabelFilter.Json.Reading

/-!
# Expressions as JSON

An expression is an object with a name, an operator and values, which are left out when there are none. It may also
be read from an array of these fields in this order. Unknown members are passed over.
-/

namespace LabelFilter

namespace Operator

/-- The names of the operators in JSON. -/
def names : List (String × Operator) :=
  [("in", oneOf), ("not_in", noneOf), ("exists", present), ("not_exists", absent)]

def jsonName : Operator → String
  | oneOf => "in"
  | noneOf => "not_in"
  | present => "exists"
  | absent => "not_exists"

end Operator

namespace Expression

open Json Reader

def toJson (e : Expression) : Json :=
  let values := if e.values.isEmpty then [] else [("values", Json.array (e.values.map .string))]
  .object ([("name", .string e.name), ("operator", .string e.operator.jsonName)] ++ values)

def jsonText (e : Expression) : String := e.toJson.text

/-- The fields that have been read so far. -/
structure Draft where
  name? : Option String
  operator? : Option Operator
  values? : Option (List String)

/-- Reads the member of a name. -/
def readField (field : String) (d : Draft) : Reader Draft := fun cs => do
  if field = "name" then
    let (name, cs) ← once field d.name? Reader.string cs
    return ({ d with name? := some name }, cs)
  else if field = "operator" then
    let (operator, cs) ← once field d.operator? (variant Operator.names) cs
    return ({ d with operator? := some operator }, cs)
  else if field = "values" then
    let (values, cs) ← once field d.values? strings cs
    return ({ d with values? := some values }, cs)
  else
    return (d, ← skipValue (← colon cs))

/-- The expression of the fields; the values may be missing. -/
def ofDraft (d : Draft) : Except Fault Expression :=
  match d.name?, d.operator? with
  | none, _ => .error (.unfit (.missingField "name"))
  | _, none => .error (.unfit (.missingField "operator"))
  | some name, some operator => .ok ⟨name, operator, d.values?.getD []⟩

def fieldList : String := "struct Expression with 3 elements"

/-- The fields in order; the values may be missing. -/
def readArray (cs : List Char) : Except Fault (Expression × List Char) := do
  let some cs ← nextElement true cs | .error (.unfit (.tooShort 0 fieldList))
  let (name, cs) ← Reader.string cs
  let some cs ← nextElement false cs | .error (.unfit (.tooShort 1 fieldList))
  let (operator, cs) ← variant Operator.names cs
  match ← nextElement false cs with
  | none => return (⟨name, operator, []⟩, ← closeArray cs)
  | some cs =>
    let (values, cs) ← strings cs
    return (⟨name, operator, values⟩, ← closeArray cs)

def reader : Reader Expression := fun cs =>
  match skipSpace cs with
  | [] => .error .cutOff
  | '[' :: rest => readArray rest
  | '{' :: rest => do
    let (d, rest) ← Reader.members stringBody readField ⟨none, none, none⟩ rest
    return (← ofDraft d, rest)
  | cs => refuse "struct Expression" cs

/-- The expression of a JSON text. -/
def ofJsonText (text : String) : Except Fault Expression := Reader.whole reader text

end Expression

end LabelFilter
