import LabelFilter.Backend

/-!
# Filtering collections

A filter picks from a list the entities whose labels pass it. Without a filter everything is kept.
-/

namespace LabelFilter

/-- An entity that carries labels. -/
class Labelled (α : Type) (Row : outParam Type) where
  labels : α → Row

namespace Filter

variable {α Test Row : Type}

/-- The entities whose labels, as picked by `labels`, pass the filter. -/
def selectBy (f : Filter Test Row) (labels : α → Row) (entities : List α) : List α :=
  entities.filter fun a => f.accepts (labels a)

/-- The entities whose labels pass the filter. -/
def select [Labelled α Row] (f : Filter Test Row) (entities : List α) : List α := f.selectBy Labelled.labels entities

/-- The entities whose labels pass the filter, if there is one. -/
def selectIfAny [Labelled α Row] (f? : Option (Filter Test Row)) (entities : List α) : List α :=
  match f? with
  | some f => f.select entities
  | none => entities

end Filter

end LabelFilter
