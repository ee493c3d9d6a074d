import LabelFilter.Backend.Document
import LabelFilter.Proofs.Backend.Compile
import LabelFilter.Proofs.Json.Containment

/-!
# Filters of documents

A document is tested for pairs by containment of an object, one for all pairs where that can be. The tests have the
answers of the document as a set of labels (`answers_document`), so a compiled filter accepts what satisfies the view.
-/

namespace LabelFilter

namespace DocumentTest

/-- Only an equal string contains a string. -/
theorem contains_string (document : Json) (value : String) :
    document.contains (.string value) = LabelSet.isString value document := by
  cases document <;> simp [Json.contains, Json.sameScalar, LabelSet.isString]

/-- The test of a pair is the question whether the labels have the pair. -/
theorem holds_ofPair (document : Json) (name value : String) :
    (ofPair name value).holds document = (LabelSet.ofJson document).hasPair name value := by
  have hpattern : Json.ofPairs [(name, value)] = .object [(name, .string value)] := rfl
  rw [ofPair, holds, hpattern, Json.contains_object_cons]
  simp [contains_string, LabelSet.ofJson, LabelSet.ofMembers]

theorem holds_ofName (document : Json) (dialect : Dialect) (name : String) :
    (ofName dialect name).holds document = (LabelSet.ofJson document).hasName name := by
  cases dialect <;> rfl

/-- Pairs of different names are tested by one object as by one object each. -/
theorem contains_ofPairs {pairs : List (String × String)} (hnodup : (pairs.map Prod.fst).Nodup) (hne : pairs ≠ [])
    (document : Json) : (contains (Json.ofPairs pairs)).holds document =
      pairs.all fun p => (ofPair p.1 p.2).holds document := by
  have hnames : ((pairs.map fun p => (p.1, Json.string p.2)).map Prod.fst).Nodup := by rwa [List.map_map]
  obtain ⟨ms, hms, hperm⟩ := Json.ofMembers_perm hnames
  have hms_ne : ms ≠ [] := fun h => hne (List.map_eq_nil_iff.mp (List.Perm.nil_eq (h ▸ hperm)).symm)
  rw [holds, Json.ofPairs, hms, Json.contains_object_eq hms_ne, hperm.all_eq, List.all_map]
  rfl

/-- All pairs hold together exactly if the labels have each of them, however they are tested. -/
theorem holds_ofPairs (document : Json) (pairs : List (String × String)) :
    (ofPairs pairs).holds (holds document) = pairs.all fun p => (LabelSet.ofJson document).hasPair p.1 p.2 := by
  simp only [← holds_ofPair]
  unfold ofPairs
  split
  next =>
    rw [Predicate.holds_all, List.all_map]
    rfl
  next hnodup =>
    split
    next hempty =>
      rw [List.isEmpty_iff.mp hempty]
      exact Predicate.holds_const _ true
    next hempty =>
      have hne : pairs ≠ [] := fun h => hempty (List.isEmpty_iff.mpr h)
      rw [Predicate.holds_test]
      exact contains_ofPairs (Decidable.not_not.mp hnodup) hne document

end DocumentTest

namespace Backend

theorem answers_document (dialect : Dialect) (document : Json) :
    (Backend.document dialect).Answers document (LabelSet.ofJson document) where
  contains := DocumentTest.holds_ofPair document
  hasName := DocumentTest.holds_ofName document dialect
  containsAll := DocumentTest.holds_ofPairs document

/-- **A filter of documents accepts what satisfies the view**, in both dialects and for every document. -/
theorem accepts_compile_document (dialect : Dialect) (v : View) (document : Json) :
    ((Backend.document dialect).compile v).accepts document = v.accepts (LabelSet.ofJson document) :=
  (answers_document dialect document).accepts_compile v

end Backend

end LabelFilter
