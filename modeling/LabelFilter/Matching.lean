import LabelFilter.LabelSet.Delimited
import LabelFilter.View

/-!
# Matching

A set of labels satisfies a view if it satisfies every expression. A comparison with no values at all holds of
every set.
-/

namespace LabelFilter

/-- The labels satisfy the expression. -/
def Expression.accepts (labels : LabelSet) (e : Expression) : Bool :=
  match e.operator with
  | .oneOf => e.values.isEmpty || e.values.any (labels.hasPair e.name)
  | .noneOf => e.values.all fun v => !labels.hasPair e.name v
  | .present => labels.hasName e.name
  | .absent => !labels.hasName e.name

/-- The labels satisfy every expression. -/
def View.accepts (labels : LabelSet) (v : View) : Bool := v.all (Expression.accepts labels)

/-- The labels that are written with a delimiter satisfy every expression. -/
def View.acceptsDelimited (delimiter : String) (labels : List String) (v : View) : Bool :=
  v.accepts (Delimited.labelSet delimiter labels)

end LabelFilter
