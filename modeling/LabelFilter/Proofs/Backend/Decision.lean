import LabelFilter.Proofs.Backend.Compile

/-!
# Filters and the answers of their tests

A compiled filter accepts a row exactly if the answers of the backend's tests satisfy every expression
(`Backend.accepts_iff_satisfies`), whatever the tests are and however they are decided. The batch must hold where all of
its pairs do (`Backend.Batches`), as it does if the pairs are tested one after the other (`Backend.batches_of_eachPair`).
-/

namespace LabelFilter.Backend

variable {Test Row : Type} (b : Backend Test Row)

/-- The pairs, tested one after the other. -/
def eachPair (pairs : List (String × String)) : Predicate Test :=
  Predicate.all (pairs.map fun p => .test (b.contains p.1 p.2))

/-- The batch holds where each of its pairs does. -/
def Batches : Prop :=
  ∀ (row : Row) (pairs : List (String × String)), (b.containsAll pairs).holds (fun t => b.holds t row) =
    pairs.all fun p => b.holds (b.contains p.1 p.2) row

/-- The tests of the row answer as the expression asks. A comparison with no values asks nothing. -/
def Satisfies (row : Row) (e : Expression) : Prop :=
  match e.operator with
  | .oneOf => e.values ≠ [] → ∃ v ∈ e.values, b.holds (b.contains e.name v) row = true
  | .noneOf => e.values ≠ [] → ¬∃ v ∈ e.values, b.holds (b.contains e.name v) row = true
  | .present => b.holds (b.hasName e.name) row = true
  | .absent => b.holds (b.hasName e.name) row = false

/-- The answers of the tests, as a set of labels. -/
def answers (row : Row) : LabelSet where
  hasName name := b.holds (b.hasName name) row
  hasPair name value := b.holds (b.contains name value) row

variable {b}

theorem batches_of_eachPair (h : b.containsAll = b.eachPair) : b.Batches := by
  intro row pairs
  rw [h, eachPair, Predicate.holds_all, List.all_map]
  rfl

theorem Batches.answers (h : b.Batches) (row : Row) : b.Answers row (b.answers row) where
  contains _ _ := rfl
  hasName _ := rfl
  containsAll := h row

theorem accepts_answers_iff (row : Row) (e : Expression) : e.accepts (b.answers row) ↔ b.Satisfies row e := by
  obtain ⟨name, operator, values⟩ := e
  cases operator with
  | oneOf | noneOf => cases values <;> simp [Expression.accepts, Satisfies, Backend.answers]
  | present => exact Iff.rfl
  | absent => simp [Expression.accepts, Satisfies, Backend.answers]

/-- **A filter asks what its expressions ask.** Whatever tests a backend has, a filter accepts a row exactly if the answers
of the tests satisfy each expression, be the pairs tested one after the other or all together. -/
theorem accepts_iff_satisfies (h : b.containsAll = b.eachPair ∨ b.Batches) (v : View) (row : Row) :
    (b.compile v).accepts row ↔ ∀ e ∈ v.expressions, b.Satisfies row e := by
  have hbatches : b.Batches := h.elim batches_of_eachPair id
  rw [(hbatches.answers row).accepts_compile, View.accepts, View.all_eq, List.all_eq_true]
  exact forall₂_congr fun e _ => accepts_answers_iff row e

/-- A storage of words, each of which is one test. -/
def words : Backend String (List String) where
  contains name value := name ++ "=" ++ value
  hasName name := "has " ++ name
  holds test row := row.contains test
  sql test column := column ++ "[" ++ test ++ "]"

/-- The storage of words with a batch that is never folded. -/
def unfoldedWords : Backend String (List String) :=
  { words with containsAll := fun pairs => .and (pairs.map fun p => .test (words.contains p.1 p.2)) }

/-- One expression of each kind, two of them in the batch, and a comparison with no values. -/
def mixed : View :=
  .list [⟨"a", .noneOf, ["2", "3"]⟩, .exact "a" "1", ⟨"b", .oneOf, ["1", "2"]⟩, ⟨"b", .present, ["x"]⟩, .exact "c" "1",
    .absent "d", ⟨"e", .oneOf, []⟩]

theorem accepts_iff_satisfies_words :
    words.containsAll = words.eachPair ∧ (words.compile mixed).accepts ["a=1", "b=2", "has b", "c=1"] ∧
      unfoldedWords.Batches ∧ (unfoldedWords.compile mixed).accepts ["a=1", "b=2", "has b", "c=1"] := by
  have hsatisfies : ∀ e ∈ mixed.expressions, words.Satisfies ["a=1", "b=2", "has b", "c=1"] e := by
    simp [mixed, Satisfies, words, Expression.exact, Expression.absent]
  have hbatches : unfoldedWords.Batches := by
    intro row pairs
    rw [unfoldedWords, Predicate.holds_and, List.all_map]
    rfl
  exact ⟨rfl, (accepts_iff_satisfies (Or.inl rfl) mixed _).mpr hsatisfies, hbatches,
    (accepts_iff_satisfies (Or.inr hbatches) mixed _).mpr hsatisfies⟩

end LabelFilter.Backend
