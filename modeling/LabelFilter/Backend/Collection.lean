import LabelFilter.Backend
import LabelFilter.LabelSet.Delimited
import LabelFilter.Sql.Like
import LabelFilter.Sql.Literal

/-!
# Collections of delimited labels

Labels that are stored as a list of strings, each a name, the delimiter and a value. In SQL they are an array of
texts.
-/

namespace LabelFilter

/-- A test of a collection. -/
inductive CollectionTest
  /-- Every element is in the collection. -/
  | containsAll (elements : List String)
  | contains (element : String)
  /-- Some element has the name, with or without a value. -/
  | hasName (name : String)
  deriving DecidableEq, Repr

namespace CollectionTest

def holds (delimiter : String) (labels : List String) : CollectionTest → Bool
  | containsAll elements => elements.all labels.contains
  | contains element => labels.contains element
  | hasName name => (Delimited.labelSet delimiter labels).hasName name

/-- The pattern of the elements that have a name and a value. -/
def namePattern (delimiter name : String) : String :=
  Sql.likeEscape name ++ Sql.likeEscape delimiter ++ "%"

def sql (delimiter column : String) : CollectionTest → String
  | containsAll elements =>
    column ++ " @> ARRAY[" ++ ", ".intercalate (elements.map (Sql.literal .standard)) ++ "]"
  | contains element => Sql.literal .standard element ++ " = ANY(" ++ column ++ ")"
  | hasName name =>
    "EXISTS (SELECT 1 FROM unnest(" ++ column ++ ") AS label WHERE label = " ++ Sql.literal .standard name ++
      " OR label LIKE " ++ Sql.literal .standard (namePattern delimiter name) ++ ")"

/-- All pairs at once; of one pair, the test of that pair. -/
def ofPairs (delimiter : String) : List (String × String) → Predicate CollectionTest
  | [] => .always
  | [p] => .test (contains (Delimited.join delimiter p.1 p.2))
  | pairs => .test (containsAll (pairs.map fun p => Delimited.join delimiter p.1 p.2))

end CollectionTest

/-- Labels in a collection, with a delimiter between name and value. -/
def Backend.collection (delimiter : String) : Backend CollectionTest (List String) where
  contains name value := .contains (Delimited.join delimiter name value)
  hasName name := .hasName name
  containsAll pairs := CollectionTest.ofPairs delimiter pairs
  holds test labels := test.holds delimiter labels
  sql test column := test.sql delimiter column

end LabelFilter
