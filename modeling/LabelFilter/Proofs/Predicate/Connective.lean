import LabelFilter.Predicate

/-!
# Connectives

Conjunctions and disjunctions are folded alike, with the parts of the two constants exchanged: one is the unit of the
connective and the other its zero. `Connective.join` is folding for either of them. A member that is the zero decides
(`join_of_mem`), and otherwise the members of all are grouped (`join_of_not_mem`).
-/

namespace LabelFilter.Predicate

variable {α : Type}

theorem isConst_iff {value : Bool} {p : Predicate α} : isConst value p ↔ p = const value := by
  cases p <;> simp [isConst]

/-- Some member is the constant. -/
theorem any_isConst_iff {value : Bool} {ps : List (Predicate α)} : ps.any (isConst value) ↔ const value ∈ ps := by
  simp [isConst_iff]

/-- A way of grouping. -/
inductive Connective
  | conjunction
  | disjunction

namespace Connective

/-- What a group of no members is. The other constant is the zero. -/
def unit : Connective → Bool
  | conjunction => true
  | disjunction => false

def build : Connective → List (Predicate α) → Predicate α
  | conjunction => and
  | disjunction => or

/-- The members that a tree adds to a group. -/
def members : Connective → Predicate α → List (Predicate α)
  | conjunction => conjuncts
  | disjunction => disjuncts

/-- The group of these members, whatever they are. -/
def group (k : Connective) : List (Predicate α) → Predicate α := Predicate.group k.unit k.build

/-- The folded group. -/
def join : Connective → List (Predicate α) → Predicate α
  | conjunction => all
  | disjunction => any

variable {k : Connective} {ps : List (Predicate α)}

theorem members_unit : k.members (const k.unit : Predicate α) = [] := by
  cases k <;> rfl

theorem members_build : k.members (k.build ps) = ps := by
  cases k <;> rfl

/-- A tree adds what it groups, or itself if it is neither the unit nor a group of the kind. -/
theorem members_cases (k : Connective) (p : Predicate α) :
    p = const k.unit ∨ (∃ qs, p = k.build qs) ∨ k.members p = [p] := by
  cases k with
  | conjunction =>
    rw [members]
    unfold conjuncts
    split
    next => exact .inl rfl
    next qs => exact .inr (.inl ⟨qs, rfl⟩)
    next => exact .inr (.inr rfl)
  | disjunction =>
    rw [members]
    unfold disjuncts
    split
    next => exact .inl rfl
    next qs => exact .inr (.inl ⟨qs, rfl⟩)
    next => exact .inr (.inr rfl)

/-- A member that is the zero decides. -/
theorem join_of_mem (h : const (!k.unit) ∈ ps) : k.join ps = const !k.unit := by
  have hany : ps.any (isConst !k.unit) := any_isConst_iff.mpr h
  cases k <;> exact if_pos hany

/-- Otherwise the members of all are grouped. -/
theorem join_of_not_mem (h : const (!k.unit) ∉ ps) : k.join ps = k.group (ps.flatMap k.members) := by
  have hany : ¬ps.any (isConst !k.unit) := fun hany => h (any_isConst_iff.mp hany)
  cases k <;> exact if_neg hany

theorem join_nil : k.join [] = (const k.unit : Predicate α) := by
  cases k <;> rfl

/-- The unit may be left out. -/
theorem join_cons_unit : k.join (const k.unit :: ps) = k.join ps := by
  have hne : (const (!k.unit) : Predicate α) ≠ const k.unit := by cases k <;> exact nofun
  by_cases hmem : const (!k.unit) ∈ ps
  · rw [join_of_mem hmem, join_of_mem (List.mem_cons_of_mem _ hmem)]
  · rw [join_of_not_mem hmem, join_of_not_mem (by simp [hmem, hne]), List.flatMap_cons, members_unit, List.nil_append]

end Connective

end LabelFilter.Predicate
