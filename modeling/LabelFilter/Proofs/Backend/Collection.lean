import LabelFilter.Backend.Collection
import LabelFilter.Proofs.Backend.Compile
import LabelFilter.Proofs.LabelSet.Delimited

/-!
# Filters of collections

A collection is tested for whole elements, each the join of a name and a value, whereas its label set takes the name and
the delimiter off the front of each element. Both come to the same (`CollectionTest.holds_contains`), so the tests have
the answers of the delimited labels (`answers_collection`), and a compiled filter accepts what satisfies the view.
-/

namespace LabelFilter

open Delimited

namespace CollectionTest

variable (delimiter : String) (labels : List String)

/-- An element is in the collection exactly if the labels have the pair that it joins. -/
theorem holds_contains (name value : String) :
    (contains (join delimiter name value)).holds delimiter labels = (labelSet delimiter labels).hasPair name value := by
  rw [holds, labelSet, Bool.eq_iff_iff, List.contains_iff_mem, List.any_eq_true]
  constructor
  · intro hmem
    exact ⟨_, hmem, isPair_iff.mpr rfl⟩
  · rintro ⟨label, hmem, hpair⟩
    rwa [← isPair_iff.mp hpair]

/-- All elements are in the collection exactly if each of them is. -/
theorem holds_containsAll (pairs : List (String × String)) :
    (containsAll (pairs.map fun p => join delimiter p.1 p.2)).holds delimiter labels =
      pairs.all fun p => (contains (join delimiter p.1 p.2)).holds delimiter labels := by
  rw [holds, List.all_map]
  rfl

/-- All pairs hold together exactly if the labels have each of them, however many there are. -/
theorem holds_ofPairs (pairs : List (String × String)) :
    (ofPairs delimiter pairs).holds (holds delimiter labels) =
      pairs.all fun p => (labelSet delimiter labels).hasPair p.1 p.2 := by
  simp only [← holds_contains]
  unfold ofPairs
  split
  next => exact Predicate.holds_const _ true
  next p => rw [Predicate.holds_test, List.all_cons, List.all_nil, Bool.and_true]
  next => rw [Predicate.holds_test, holds_containsAll]

end CollectionTest

namespace Backend

theorem answers_collection (delimiter : String) (labels : List String) :
    (Backend.collection delimiter).Answers labels (labelSet delimiter labels) where
  contains := CollectionTest.holds_contains delimiter labels
  hasName _ := rfl
  containsAll := CollectionTest.holds_ofPairs delimiter labels

/-- **A filter of collections accepts what satisfies the view**, for every delimiter and all labels. -/
theorem accepts_compile_collection (delimiter : String) (v : View) (labels : List String) :
    ((Backend.collection delimiter).compile v).accepts labels = v.acceptsDelimited delimiter labels :=
  (answers_collection delimiter labels).accepts_compile v

end Backend

end LabelFilter
