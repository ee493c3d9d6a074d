import LabelFilter.Proofs.FirstOccurrences
import LabelFilter.Proofs.View.Merging

/-!
# Merging leaves out repeats

A merged selector has the expressions of all sources, each where it first comes up (`View.merge_firstOccurrences`). It
depends on the sources through this list alone (`View.merge_congr`), so sources may be merged part by part, or combined
first, and a source may be given more than once.
-/

namespace LabelFilter.View

theorem merge_expressions (sources : List View) :
    (merge sources).expressions = (sources.flatMap expressions).eraseDups := by
  rw [merge_eq, expressions_combine]

/-- Sources that are the same list up to repeats are merged to the same. -/
theorem merge_congr {xs ys : List View}
    (h : (xs.flatMap expressions).eraseDups = (ys.flatMap expressions).eraseDups) : merge xs = merge ys := by
  rw [← merge_expressions, ← merge_expressions] at h
  exact congrArg Selector.mk h

/-- Sources may be merged part by part. -/
theorem merge_append (xs ys : List View) :
    merge (xs ++ ys) = merge [selector (merge xs), selector (merge ys)] := by
  apply merge_congr
  rw [List.flatMap_append, ← eraseDups_append_eraseDups, ← merge_expressions, ← merge_expressions]
  simp only [List.flatMap_cons, List.flatMap_nil, List.append_nil, expressions_selector]

/-- Sources may be combined before they are merged. -/
theorem merge_combine (sources : List View) : merge [combine sources] = merge sources := by
  apply merge_congr
  rw [List.flatMap_singleton, expressions_combine]

/-- A source may be given more than once. -/
theorem merge_replicate (v : View) (copies : Nat) : merge (List.replicate (copies + 1) v) = merge [v] := by
  apply merge_congr
  rw [List.replicate_succ, List.flatMap_cons, List.flatMap_singleton]
  refine eraseDups_append_of_subset fun e he => ?_
  obtain ⟨w, hw, he⟩ := List.mem_flatMap.mp he
  exact List.eq_of_mem_replicate hw ▸ he

/-- **Merging keeps first occurrences.** The merged expressions are those of the sources, one after the other, without
those that are equal to an earlier one: the same expressions, no two of them equal, in the order in which they first come
up. How the sources are grouped makes no difference, and neither does it how often one is given. -/
theorem merge_firstOccurrences :
    (∀ sources, (merge sources).expressions = (sources.flatMap expressions).eraseDups ∧
      FirstOccurrences (sources.flatMap expressions) (merge sources).expressions) ∧
    (∀ xs ys, merge (xs ++ ys) = merge [selector (merge xs), selector (merge ys)] ∧
      merge (xs ++ ys) = merge [combine (xs ++ ys)]) ∧
    ∀ v copies, merge (List.replicate (copies + 1) v) = merge [v] := by
  refine ⟨fun sources => ⟨merge_expressions sources, ?_⟩, fun xs ys => ⟨merge_append xs ys, ?_⟩, merge_replicate⟩
  · rw [merge_expressions]
    exact firstOccurrences_eraseDups _
  · exact (merge_combine (xs ++ ys)).symm

/-- The same values in another order make another expression. -/
example : (merge [.list [⟨"a", .oneOf, ["1", "2"]⟩, ⟨"a", .oneOf, ["2", "1"]⟩, ⟨"a", .oneOf, ["1", "2"]⟩]]).expressions =
    [⟨"a", .oneOf, ["1", "2"]⟩, ⟨"a", .oneOf, ["2", "1"]⟩] := by decide

end LabelFilter.View
