import LabelFilter.Predicate
import LabelFilter.View

/-!
# Backends

A backend is a way of storing labels that knows how to test them: `Row` is one stored set of labels and `Test` a
primitive test of it, which can be decided in memory (`holds`) or written as SQL (`sql`). `Backend.compile` turns a
view into a filter: one batch for all expressions that ask for exactly one value, then a clause for each other
expression, in order. Comparisons with no values at all test nothing.
-/

namespace LabelFilter

/-- The primitive tests of stored labels. -/
structure Backend (Test Row : Type) where
  /-- The label has the value. -/
  contains : (name value : String) → Test
  /-- The label is there. -/
  hasName : (name : String) → Test
  /-- All labels have their values. A storage without a test for this tests one after the other. -/
  containsAll : List (String × String) → Predicate Test :=
    fun pairs => Predicate.all (pairs.map fun p => .test (contains p.1 p.2))
  /-- Decides a test in memory. -/
  holds : Test → Row → Bool
  /-- Writes a test of a column. -/
  sql : Test → (column : String) → String

/-- A compiled selector, with the backend that decides and writes its tests. -/
structure Filter (Test Row : Type) where
  backend : Backend Test Row
  predicate : Predicate Test

namespace Backend

variable {Test Row : Type} (b : Backend Test Row)

/-- The clause of an expression, unless it is in the batch or tests nothing. -/
def clause? (e : Expression) : Option (Predicate Test) :=
  match e.operator, e.values with
  | .oneOf, [] => none
  | .oneOf, [_] => none
  | .oneOf, vs => some (Predicate.any (vs.map fun v => .test (b.contains e.name v)))
  | .noneOf, [] => none
  | .noneOf, vs => some (Predicate.all (vs.map fun v => (Predicate.test (b.contains e.name v)).negate))
  | .present, _ => some (.test (b.hasName e.name))
  | .absent, _ => some (Predicate.test (b.hasName e.name)).negate

/-- The predicate of a view: the batch and the clauses. -/
def predicate (v : View) : Predicate Test :=
  Predicate.all (b.containsAll v.exactMatches :: v.gather b.clause?)

def compile (v : View) : Filter Test Row := ⟨b, b.predicate v⟩

end Backend

namespace Filter

variable {Test Row : Type} (f : Filter Test Row)

/-- The stored labels pass the filter. -/
def accepts (row : Row) : Bool := f.predicate.holds fun t => f.backend.holds t row

/-- The filter as a boolean expression on a column. -/
def toSql (column : String) : String := f.predicate.render fun t => f.backend.sql t column

end Filter

end LabelFilter
