import LabelFilter.Backend
import LabelFilter.Json.Text
import LabelFilter.Sql.Literal

/-!
# Documents of labels

Labels that are stored as a JSON object of strings. Two dialects of SQL can test such a column: both test pairs by
containment of an object, and the presence of a name by its key or by its path.
-/

namespace LabelFilter

inductive Dialect
  /-- Operators of `jsonb`. -/
  | postgres
  /-- Functions, and literals in which the backslash escapes. -/
  | mysql
  deriving DecidableEq, Repr

/-- A test of a document. -/
inductive DocumentTest
  | contains (pattern : Json)
  /-- The object has the key. -/
  | keyExists (name : String)
  /-- There is a value at the path of the name. -/
  | pathExists (name : String)

namespace DocumentTest

def holds (document : Json) : DocumentTest → Bool
  | contains pattern => document.contains pattern
  | keyExists name => document.hasKey name
  | pathExists name => document.hasKey name

/-- The path of a member. -/
def path (name : String) : String := "$." ++ Json.stringText name

def sql (dialect : Dialect) (column : String) : DocumentTest → String
  | contains pattern =>
    match dialect with
    | .postgres => column ++ " @> " ++ Sql.literal .standard pattern.text ++ "::jsonb"
    | .mysql => "JSON_CONTAINS(" ++ column ++ ", " ++ Sql.literal .backslash pattern.text ++ ")"
  | keyExists name => column ++ " ? " ++ Sql.literal .standard name
  | pathExists name =>
    "JSON_CONTAINS_PATH(" ++ column ++ ", 'one', " ++ Sql.literal .backslash (path name) ++ ")"

/-- The test of one pair. -/
def ofPair (name value : String) : DocumentTest := contains (Json.ofPairs [(name, value)])

/-- All pairs as one object. Two pairs of one name make no object, so then the pairs are tested one by one. -/
def ofPairs (pairs : List (String × String)) : Predicate DocumentTest :=
  if ¬(pairs.map Prod.fst).Nodup then Predicate.all (pairs.map fun p => .test (ofPair p.1 p.2))
  else if pairs.isEmpty then .always
  else .test (contains (Json.ofPairs pairs))

/-- The test of a name in a dialect. -/
def ofName : Dialect → String → DocumentTest
  | .postgres, name => keyExists name
  | .mysql, name => pathExists name

end DocumentTest

/-- Labels in a JSON object. -/
def Backend.document (dialect : Dialect) : Backend DocumentTest Json where
  contains name value := .ofPair name value
  hasName name := .ofName dialect name
  containsAll pairs := DocumentTest.ofPairs pairs
  holds test document := test.holds document
  sql test column := test.sql dialect column

end LabelFilter
