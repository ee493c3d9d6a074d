import LabelFilter.Proofs.Predicate.Connective

/-!
# The tests of a predicate

`Predicate.tests` lists the tests at the leaves of a tree, and `Predicate.map` puts other tests in their places. What is
left of a tree when its tests are replaced by their kinds is its shape; two trees of one shape have the same groups and
negations, with tests of the same kinds below them (`map_eq_and_iff` and the like).

Folding loses no test and adds none, unless a member decides the whole group (`Connective.tests_join`, `tests_negate`).
-/

namespace LabelFilter.Predicate

variable {α β : Type}

mutual

/-- The tests at the leaves, in order. -/
def tests : Predicate α → List α
  | const _ => []
  | test t => [t]
  | not p => tests p
  | and ps => testsEach ps
  | or ps => testsEach ps

def testsEach : List (Predicate α) → List α
  | [] => []
  | p :: ps => tests p ++ testsEach ps

end

mutual

/-- The tree with other tests in the places of its own. -/
def map (f : α → β) : Predicate α → Predicate β
  | const b => const b
  | test t => test (f t)
  | not p => not (map f p)
  | and ps => and (mapEach f ps)
  | or ps => or (mapEach f ps)

def mapEach (f : α → β) : List (Predicate α) → List (Predicate β)
  | [] => []
  | p :: ps => map f p :: mapEach f ps

end

/-! ## Groups as lists -/

theorem testsEach_eq (ps : List (Predicate α)) : testsEach ps = ps.flatMap tests := by
  induction ps with
  | nil => simp [testsEach]
  | cons p ps ih => simp [testsEach, ih]

@[simp] theorem tests_const (b : Bool) : (const b : Predicate α).tests = [] := by simp [tests]

@[simp] theorem tests_test (t : α) : (test t).tests = [t] := by simp [tests]

@[simp] theorem tests_not (p : Predicate α) : (not p).tests = p.tests := by simp [tests]

@[simp] theorem tests_and (ps : List (Predicate α)) : (and ps).tests = ps.flatMap tests := by
  simp [tests, testsEach_eq]

@[simp] theorem tests_or (ps : List (Predicate α)) : (or ps).tests = ps.flatMap tests := by
  simp [tests, testsEach_eq]

mutual

/-- The number of tests counts the leaves. -/
theorem testCount_eq : ∀ p : Predicate α, p.testCount = p.tests.length
  | const _ => by simp [testCount]
  | test _ => by simp [testCount]
  | not p => by rw [testCount, testCount_eq p, tests_not]
  | and ps => by rw [testCount, testCounts_eq ps, tests]
  | or ps => by rw [testCount, testCounts_eq ps, tests]

theorem testCounts_eq : ∀ ps : List (Predicate α), testCounts ps = (testsEach ps).length
  | [] => by simp [testCounts, testsEach]
  | p :: ps => by rw [testCounts, testCount_eq p, testCounts_eq ps, testsEach, List.length_append]

end

/-! ## Folding -/

namespace Connective

variable {k : Connective} {ps : List (Predicate α)}

theorem tests_build (k : Connective) (ps : List (Predicate α)) : (k.build ps).tests = ps.flatMap tests := by
  cases k with
  | conjunction => exact tests_and ps
  | disjunction => exact tests_or ps

theorem tests_members (k : Connective) (p : Predicate α) : (k.members p).flatMap tests = p.tests := by
  rcases k.members_cases p with rfl | ⟨qs, rfl⟩ | hself
  · rw [members_unit, tests_const, List.flatMap_nil]
  · rw [members_build, tests_build]
  · rw [hself, List.flatMap_singleton]

theorem tests_group (k : Connective) (ps : List (Predicate α)) : (k.group ps).tests = ps.flatMap tests := by
  match ps with
  | [] => exact tests_const k.unit
  | [p] => exact (List.flatMap_singleton tests p).symm
  | _ :: _ :: _ => exact tests_build k _

/-- A folded group has the tests of all members, unless one of them is the zero. -/
theorem tests_join (h : const (!k.unit) ∉ ps) : (k.join ps).tests = ps.flatMap tests := by
  simp only [join_of_not_mem h, tests_group, List.flatMap_assoc, tests_members]

/-- What holds of the tests of all members holds of the tests of the folded group. -/
theorem forall_mem_tests_join {P : α → Prop} (h : ∀ p ∈ ps, ∀ t ∈ p.tests, P t) : ∀ t ∈ (k.join ps).tests, P t := by
  by_cases hmem : const (!k.unit) ∈ ps
  · rw [join_of_mem hmem, tests_const]
    exact fun t ht => (nomatch ht)
  · rw [tests_join hmem]
    intro t ht
    obtain ⟨p, hp, ht⟩ := List.mem_flatMap.mp ht
    exact h p hp t ht

end Connective

@[simp] theorem tests_negate (p : Predicate α) : p.negate.tests = p.tests := by
  unfold negate
  split <;> simp

theorem forall_mem_tests_all {P : α → Prop} {ps : List (Predicate α)} (h : ∀ p ∈ ps, ∀ t ∈ p.tests, P t) :
    ∀ t ∈ (all ps).tests, P t :=
  Connective.forall_mem_tests_join (k := .conjunction) h

theorem forall_mem_tests_any {P : α → Prop} {ps : List (Predicate α)} (h : ∀ p ∈ ps, ∀ t ∈ p.tests, P t) :
    ∀ t ∈ (any ps).tests, P t :=
  Connective.forall_mem_tests_join (k := .disjunction) h

/-! ## Shapes -/

section Shape

variable {f : α → β}

theorem mapEach_eq (ps : List (Predicate α)) : mapEach f ps = ps.map (map f) := by
  induction ps with
  | nil => simp [mapEach]
  | cons p ps ih => simp [mapEach, ih]

theorem map_eq_const_iff {p : Predicate α} {b : Bool} : p.map f = const b ↔ p = const b := by
  cases p <;> simp [map]

theorem map_eq_test_iff {p : Predicate α} {u : β} : p.map f = test u ↔ ∃ t, p = test t ∧ f t = u := by
  cases p <;> simp [map]

theorem map_eq_not_iff {p : Predicate α} {s : Predicate β} : p.map f = not s ↔ ∃ p', p = not p' ∧ p'.map f = s := by
  cases p <;> simp [map]

theorem map_eq_and_iff {p : Predicate α} {ss : List (Predicate β)} :
    p.map f = and ss ↔ ∃ ps, p = and ps ∧ ps.map (map f) = ss := by
  cases p <;> simp [map, mapEach_eq]

theorem map_eq_or_iff {p : Predicate α} {ss : List (Predicate β)} :
    p.map f = or ss ↔ ∃ ps, p = or ps ∧ ps.map (map f) = ss := by
  cases p <;> simp [map, mapEach_eq]

/-- Whether a negation needs parentheses is a matter of shape. -/
theorem renderNot_map (p : Predicate α) (text : String) : renderNot (p.map f) text = renderNot p text := by
  cases p <;> simp [map, renderNot]

end Shape

end LabelFilter.Predicate
