import LabelFilter.Proofs.Predicate.Connective

/-!
# Trees with proper groups

A group of none or of one is written like no group at all, or like its member. Trees without such groups are
`Predicate.Grouped`, and those that the combinators build from tests and constants (`Predicate.Built`) are among them
(`Built.grouped`): `Connective.group` makes a group of two members at least, and a negation makes none.
-/

namespace LabelFilter.Predicate

variable {α : Type}

/-- Every group has two members at least. -/
inductive Grouped : Predicate α → Prop
  | const (value : Bool) : Grouped (const value)
  | test (t : α) : Grouped (test t)
  | not {p : Predicate α} (operand : Grouped p) : Grouped (not p)
  | and {ps : List (Predicate α)} (size : 2 ≤ ps.length) (members : ∀ p ∈ ps, Grouped p) : Grouped (and ps)
  | or {ps : List (Predicate α)} (size : 2 ≤ ps.length) (members : ∀ p ∈ ps, Grouped p) : Grouped (or ps)

/-- The combinators build the tree. -/
inductive Built : Predicate α → Prop
  | const (value : Bool) : Built (const value)
  | test (t : α) : Built (test t)
  | all {ps : List (Predicate α)} (members : ∀ p ∈ ps, Built p) : Built (all ps)
  | any {ps : List (Predicate α)} (members : ∀ p ∈ ps, Built p) : Built (any ps)
  | both {p q : Predicate α} (left : Built p) (right : Built q) : Built (both p q)
  | either {p q : Predicate α} (left : Built p) (right : Built q) : Built (either p q)
  | negate {p : Predicate α} (operand : Built p) : Built p.negate

namespace Connective

variable {k : Connective} {p : Predicate α} {ps : List (Predicate α)}

/-- Two members or more are grouped as they stand. -/
theorem group_eq_build (h : 2 ≤ ps.length) : k.group ps = k.build ps := by
  match ps with
  | _ :: _ :: _ => rfl

theorem grouped_build_iff : Grouped (k.build ps) ↔ 2 ≤ ps.length ∧ ∀ p ∈ ps, Grouped p := by
  constructor
  · intro h
    cases k with
    | conjunction => cases h with | and size members => exact ⟨size, members⟩
    | disjunction => cases h with | or size members => exact ⟨size, members⟩
  · rintro ⟨size, members⟩
    cases k with
    | conjunction => exact .and size members
    | disjunction => exact .or size members

theorem grouped_members (h : Grouped p) : ∀ q ∈ k.members p, Grouped q := by
  rcases k.members_cases p with rfl | ⟨qs, rfl⟩ | hself
  · rw [members_unit]
    exact nofun
  · rw [members_build]
    exact (grouped_build_iff.mp h).2
  · rw [hself]
    exact List.forall_mem_singleton.mpr h

theorem grouped_group (h : ∀ p ∈ ps, Grouped p) : Grouped (k.group ps) := by
  match ps with
  | [] => exact .const k.unit
  | [p] => exact h p List.mem_cons_self
  | _ :: _ :: _ => exact grouped_build_iff.mpr ⟨by simp, h⟩

/-- What is joined has proper groups if each tree has. -/
theorem grouped_join (h : ∀ p ∈ ps, Grouped p) : Grouped (k.join ps) := by
  by_cases hzero : Predicate.const (!k.unit) ∈ ps
  · rw [join_of_mem hzero]
    exact .const _
  · rw [join_of_not_mem hzero]
    refine grouped_group fun q hq => ?_
    obtain ⟨p, hp, hq⟩ := List.mem_flatMap.mp hq
    exact grouped_members (h p hp) q hq

end Connective

theorem Grouped.negate {p : Predicate α} (h : Grouped p) : Grouped p.negate := by
  cases h with
  | const value => exact .const !value
  | not operand => exact operand
  | test t => exact .not (.test t)
  | and size members => exact .not (.and size members)
  | or size members => exact .not (.or size members)

theorem Built.grouped {p : Predicate α} (h : Built p) : Grouped p := by
  induction h with
  | const value => exact .const value
  | test t => exact .test t
  | all _ ih => exact Connective.grouped_join (k := .conjunction) ih
  | any _ ih => exact Connective.grouped_join (k := .disjunction) ih
  | both _ _ hp hq => exact Connective.grouped_join (k := .conjunction) (by simp [hp, hq])
  | either _ _ hp hq => exact Connective.grouped_join (k := .disjunction) (by simp [hp, hq])
  | negate _ ih => exact ih.negate

end LabelFilter.Predicate
