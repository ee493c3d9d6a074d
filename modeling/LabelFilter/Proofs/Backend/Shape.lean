import LabelFilter.Backend.Collection
import LabelFilter.Backend.Document
import LabelFilter.Proofs.Backend.Decision
import LabelFilter.Proofs.Predicate.Folded
import LabelFilter.Proofs.Predicate.Tests

/-!
# The shape of compiled predicates

A compiled predicate has the tests of the batch and then those of each expression that is not in the batch, in order and
each of them once. It is folded, and a constant only if no expression asks for anything (`Backend.Compiled`). So it is for
collections, for documents in both dialects, and for any storage that tests pairs one after the other
(`Backend.compiled_shape`).

All that this takes is that the batch of no pairs is always, and any other batch is solid (`Backend.BatchesSolid`).
-/

namespace LabelFilter

open Predicate

/-- A comparison with no values. -/
def Expression.Valueless (e : Expression) : Prop := e.operator.takesValues ∧ e.values = []

namespace Backend

variable {Test Row : Type} (b : Backend Test Row)

/-- The tests that an expression adds to those of the batch. An expression that asks for one value is in the batch. -/
def testsOf (e : Expression) : List Test :=
  match e.operator with
  | .oneOf => if 2 ≤ e.values.length then e.values.map (b.contains e.name) else []
  | .noneOf => e.values.map (b.contains e.name)
  | .present | .absent => [b.hasName e.name]

/-- All tests of a view, in order. -/
def testsOfView (v : View) : List Test := (b.containsAll v.exactMatches).tests ++ v.expressions.flatMap b.testsOf

/-- The predicate of the view has the tests that it should, and is folded. -/
structure Compiled (v : View) : Prop where
  tests : (b.predicate v).tests = b.testsOfView v
  testCount : (b.predicate v).testCount = (b.testsOfView v).length
  /-- It is a constant only if no expression asks for anything, and then it is always. -/
  const_iff : ∀ value, b.predicate v = .const value ↔ value = true ∧ ∀ e ∈ v.expressions, e.Valueless
  /-- Otherwise it has no constant, no group of fewer than two and no group in a group of its kind. -/
  solid : (¬∀ e ∈ v.expressions, e.Valueless) → (b.predicate v).Solid

/-- The batch of no pairs is always, and any other is solid. -/
structure BatchesSolid : Prop where
  nil : b.containsAll [] = .always
  solid : ∀ {pairs}, pairs ≠ [] → (b.containsAll pairs).Solid

variable {b}

/-! ## Clauses -/

/-- Joining solid trees of one test each, one for every element, is solid and has these tests in order. -/
theorem join_map_spec (k : Connective) {β : Type} {tree : β → Predicate Test} {testOf : β → Test}
    (hsolid : ∀ x, (tree x).Solid) (htests : ∀ x, (tree x).tests = [testOf x]) {xs : List β} (hne : xs ≠ []) :
    (k.join (xs.map tree)).Solid ∧ (k.join (xs.map tree)).tests = xs.map testOf := by
  have hall : ∀ p ∈ xs.map tree, p.Solid := List.forall_mem_map.mpr fun x _ => hsolid x
  refine ⟨Connective.solid_join hall (by simpa using hne), ?_⟩
  rw [Connective.tests_join fun hmem => (hall _ hmem).ne_const _ rfl, List.flatMap_map, List.map_eq_flatMap]
  simp only [htests]

/-- A clause is solid and has the tests that the expression adds. An expression without a clause adds none. -/
theorem clause?_spec (e : Expression) :
    match b.clause? e with
    | none => b.testsOf e = []
    | some p => p.Solid ∧ p.tests = b.testsOf e := by
  obtain ⟨name, operator, values⟩ := e
  cases operator with
  | oneOf =>
    match values with
    | [] | [_] => rfl
    | v :: w :: vs => exact join_map_spec .disjunction (fun _ => .test _) (fun _ => tests_test _) nofun
  | noneOf =>
    match values with
    | [] => rfl
    | v :: vs =>
      exact join_map_spec .conjunction (fun _ => .not (.test _) nofun)
        (fun _ => (tests_negate _).trans (tests_test _)) nofun
  | present => exact ⟨.test _, tests_test _⟩
  | absent => exact ⟨.not (.test _) nofun, tests_test _⟩

theorem solid_of_clause? {e : Expression} {p : Predicate Test} (h : b.clause? e = some p) : p.Solid := by
  have hspec := b.clause?_spec e
  rw [h] at hspec
  exact hspec.1

/-- The clauses of expressions have the tests that these add. -/
theorem tests_clauses (es : List Expression) :
    (es.filterMap b.clause?).flatMap Predicate.tests = es.flatMap b.testsOf := by
  induction es with
  | nil => rfl
  | cons e es ih =>
    have hspec := b.clause?_spec e
    cases h : b.clause? e with
    | none =>
      rw [h] at hspec
      rw [List.filterMap_cons_none h, ih, List.flatMap_cons, hspec, List.nil_append]
    | some p =>
      rw [h] at hspec
      rw [List.filterMap_cons_some h, List.flatMap_cons, List.flatMap_cons, ih, hspec.2]

/-- A comparison with no values is what is neither in the batch nor a clause. -/
theorem valueless_iff {e : Expression} : e.Valueless ↔ e.exactValue? = none ∧ b.clause? e = none := by
  obtain ⟨name, operator, values⟩ := e
  cases operator with
  | oneOf =>
    match values with
    | [] => simp [Expression.Valueless, Operator.takesValues, Expression.exactValue?, clause?]
    | [_] => simp [Expression.Valueless, Expression.exactValue?]
    | _ :: _ :: _ => simp [Expression.Valueless, clause?]
  | noneOf => cases values <;> simp [Expression.Valueless, Operator.takesValues, Expression.exactValue?, clause?]
  | present | absent => simp [Expression.Valueless, Operator.takesValues, clause?]

theorem exactMatches_eq_nil_iff {v : View} : v.exactMatches = [] ↔ ∀ e ∈ v.expressions, e.exactValue? = none := by
  rw [View.exactMatches, View.gather_eq, List.filterMap_eq_nil_iff]
  simp

/-- No expression asks for anything exactly if there is nothing in the batch and no clause. -/
theorem forall_valueless_iff {v : View} :
    (∀ e ∈ v.expressions, e.Valueless) ↔ v.exactMatches = [] ∧ v.gather b.clause? = [] := by
  rw [exactMatches_eq_nil_iff, View.gather_eq, List.filterMap_eq_nil_iff]
  simp only [b.valueless_iff, imp_and, forall_and]

theorem solid_of_mem_clauses {v : View} : ∀ p ∈ v.gather b.clause?, p.Solid := by
  rw [View.gather_eq]
  intro p hp
  obtain ⟨e, _, hclause⟩ := List.mem_filterMap.mp hp
  exact solid_of_clause? hclause

/-! ## Predicates -/

namespace BatchesSolid

variable {v : View}

/-- If no expression asks for anything, the predicate is always. -/
theorem predicate_of_valueless (h : b.BatchesSolid) (hall : ∀ e ∈ v.expressions, e.Valueless) :
    b.predicate v = .always := by
  obtain ⟨hbatch, hclauses⟩ := (b.forall_valueless_iff).mp hall
  rw [predicate, hbatch, hclauses, h.nil]
  rfl

/-- If some expression asks for something, the predicate is solid: the batch is, or it is left out and there are
clauses. -/
theorem solid_predicate (h : b.BatchesSolid) (hsome : ¬∀ e ∈ v.expressions, e.Valueless) : (b.predicate v).Solid := by
  rw [b.forall_valueless_iff] at hsome
  by_cases hbatch : v.exactMatches = []
  · have hclauses : v.gather b.clause? ≠ [] := fun hnone => hsome ⟨hbatch, hnone⟩
    have hunit : b.predicate v = Connective.conjunction.join (v.gather b.clause?) := by
      rw [predicate, hbatch, h.nil]
      exact Connective.join_cons_unit (k := .conjunction)
    rw [hunit]
    exact Connective.solid_join solid_of_mem_clauses hclauses
  · have hmembers := List.forall_mem_cons.mpr ⟨h.solid hbatch, solid_of_mem_clauses (b := b) (v := v)⟩
    exact Connective.solid_join (k := .conjunction) hmembers (List.cons_ne_nil _ _)

theorem const_false_not_mem (h : b.BatchesSolid) :
    const false ∉ b.containsAll v.exactMatches :: v.gather b.clause? := by
  intro hmem
  rcases List.mem_cons.mp hmem with hbatch | hclause
  · by_cases hnone : v.exactMatches = []
    · rw [hnone, h.nil] at hbatch
      cases hbatch
    · exact (h.solid hnone).ne_const false hbatch.symm
  · exact (solid_of_mem_clauses _ hclause).ne_const false rfl

theorem tests_predicate (h : b.BatchesSolid) : (b.predicate v).tests = b.testsOfView v := by
  have htests := Connective.tests_join (k := .conjunction) (h.const_false_not_mem (v := v))
  rw [List.flatMap_cons, View.gather_eq, tests_clauses] at htests
  rw [predicate, testsOfView, View.gather_eq]
  exact htests

theorem compiled (h : b.BatchesSolid) (v : View) : b.Compiled v where
  tests := h.tests_predicate
  testCount := by rw [testCount_eq, h.tests_predicate]
  const_iff value := by
    constructor
    · intro hconst
      by_cases hall : ∀ e ∈ v.expressions, e.Valueless
      · rw [h.predicate_of_valueless hall] at hconst
        cases hconst
        exact ⟨rfl, hall⟩
      · exact absurd hconst ((h.solid_predicate hall).ne_const value)
    · rintro ⟨rfl, hall⟩
      exact h.predicate_of_valueless hall
  solid := h.solid_predicate

end BatchesSolid

/-! ## Storages -/

theorem batchesSolid_of_eachPair (h : b.containsAll = b.eachPair) : b.BatchesSolid where
  nil := by
    rw [h]
    rfl
  solid {pairs} hne := by
    rw [h]
    exact (join_map_spec .conjunction (fun _ => .test _) (fun _ => tests_test _) hne).1

theorem batchesSolid_collection (delimiter : String) : (Backend.collection delimiter).BatchesSolid where
  nil := rfl
  solid {pairs} hne := by
    match pairs with
    | [_] | _ :: _ :: _ => exact .test _

theorem batchesSolid_document (dialect : Dialect) : (Backend.document dialect).BatchesSolid where
  nil := rfl
  solid {pairs} hne := by
    show (DocumentTest.ofPairs pairs).Solid
    unfold DocumentTest.ofPairs
    split
    · exact (join_map_spec .conjunction (fun _ => .test _) (fun _ => tests_test _) hne).1
    · split
      next hempty => exact absurd (List.isEmpty_iff.mp hempty) hne
      next => exact .test _

/-- **Compiling loses no test and leaves nothing unfolded.** The predicate of a view has the tests of the batch and those
that the other expressions add, in order. It is always if no expression asks for anything, and otherwise it has no
constant, no group of fewer than two and no group in a group of its kind. -/
theorem compiled_shape :
    (∀ delimiter v, (Backend.collection delimiter).Compiled v) ∧
    (∀ dialect v, (Backend.document dialect).Compiled v) ∧
    ∀ {Test Row : Type} (b : Backend Test Row), b.containsAll = b.eachPair → ∀ v, b.Compiled v :=
  ⟨fun delimiter => (batchesSolid_collection delimiter).compiled, fun dialect => (batchesSolid_document dialect).compiled,
    fun _ h => (batchesSolid_of_eachPair h).compiled⟩

/-- The batch comes first, then the values of the first expression in their order, and so on. -/
theorem compiled_shape_words :
    words.containsAll = words.eachPair ∧
    (words.predicate mixed).tests = ["a=1", "c=1", "a=2", "a=3", "b=1", "b=2", "has b", "has d"] ∧
    (words.predicate mixed).Solid := by
  have hcompiled := compiled_shape.2.2 words rfl mixed
  have hsome : ¬∀ e ∈ mixed.expressions, e.Valueless := by
    simp [mixed, Expression.Valueless]
  exact ⟨rfl, hcompiled.tests.trans (by decide), hcompiled.solid hsome⟩

end Backend

end LabelFilter
