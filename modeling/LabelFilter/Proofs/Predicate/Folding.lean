import LabelFilter.Proofs.Predicate.Connective

/-!
# What folding keeps

`Predicate.all`, `any` and `negate` fold as they build. Unless a member decides a group by itself, the folded group asks
the same tests in the same order as the plain one and comes to the same answer (`Connective.evaluate_join`), and in
every case it holds where the plain one holds (`holds_all`, `holds_any`, `holds_negate`).
-/

namespace LabelFilter.Predicate

variable {α σ : Type}

/-! ## Evaluation -/

section Evaluation

variable (ask : σ → α → Bool × σ)

namespace Connective

/-- Asks the members of a group one after the other, until one decides it. -/
def evaluateEach (k : Connective) (state : σ) (ps : List (Predicate α)) : Bool × σ :=
  match k with
  | conjunction => evaluateAll ask state ps
  | disjunction => evaluateAny ask state ps

variable {k : Connective} {state : σ}

theorem evaluate_build (ps : List (Predicate α)) :
    evaluate ask state (k.build ps) = k.evaluateEach ask state ps := by
  cases k <;> simp [build, evaluate, evaluateEach]

theorem evaluateEach_nil : k.evaluateEach ask state [] = (k.unit, state) := by
  cases k <;> simp [evaluateEach, unit, evaluateAll, evaluateAny]

/-- The first member decides unless it answers as the unit does. -/
theorem evaluateEach_cons (p : Predicate α) (ps : List (Predicate α)) :
    k.evaluateEach ask state (p :: ps) =
      match evaluate ask state p with
      | (answer, later) => if answer = k.unit then k.evaluateEach ask later ps else (answer, later) := by
  rcases h : evaluate ask state p with ⟨answer, later⟩
  cases k <;> cases answer <;> simp [evaluateEach, unit, evaluateAll, evaluateAny, h]

/-- A group of two lists asks the second only if the first does not decide it. -/
theorem evaluateEach_append (ps qs : List (Predicate α)) :
    k.evaluateEach ask state (ps ++ qs) =
      match k.evaluateEach ask state ps with
      | (answer, later) => if answer = k.unit then k.evaluateEach ask later qs else (answer, later) := by
  induction ps generalizing state with
  | nil => simp [evaluateEach_nil]
  | cons p ps ih =>
    rw [List.cons_append, evaluateEach_cons, evaluateEach_cons]
    rcases evaluate ask state p with ⟨answer, later⟩
    by_cases hanswer : answer = k.unit
    · simp [hanswer, ih]
    · simp [hanswer]

theorem evaluateEach_singleton (p : Predicate α) : k.evaluateEach ask state [p] = evaluate ask state p := by
  rw [evaluateEach_cons]
  rcases evaluate ask state p with ⟨answer, later⟩
  by_cases hanswer : answer = k.unit
  · simp [hanswer, evaluateEach_nil]
  · simp [hanswer]

/-- What a predicate adds to a group is as good as the predicate. -/
theorem evaluateEach_members (p : Predicate α) : k.evaluateEach ask state (k.members p) = evaluate ask state p := by
  rcases k.members_cases p with rfl | ⟨qs, rfl⟩ | hself
  · rw [members_unit, evaluateEach_nil, evaluate]
  · rw [members_build, evaluate_build]
  · rw [hself, evaluateEach_singleton]

theorem evaluateEach_flatMap_members (ps : List (Predicate α)) :
    k.evaluateEach ask state (ps.flatMap k.members) = k.evaluateEach ask state ps := by
  induction ps generalizing state with
  | nil => rfl
  | cons p ps ih =>
    rw [List.flatMap_cons, evaluateEach_append, evaluateEach_members, evaluateEach_cons]
    simp only [ih]

/-- A group of any size is asked member by member. -/
theorem evaluate_group (ps : List (Predicate α)) :
    evaluate ask state (k.group ps) = k.evaluateEach ask state ps := by
  match ps with
  | [] => exact (evaluateEach_nil ask).symm
  | [p] => exact (evaluateEach_singleton ask p).symm
  | _ :: _ :: _ => exact evaluate_build ask _

/-- A folded group is asked like the plain one, unless a member is the zero. -/
theorem evaluate_join {ps : List (Predicate α)} (h : const (!k.unit) ∉ ps) (state : σ) :
    evaluate ask state (k.join ps) = evaluate ask state (k.build ps) := by
  rw [join_of_not_mem h, evaluate_group, evaluateEach_flatMap_members, evaluate_build]

/-- A group with a member that is the zero has the answer of the zero, whatever is asked before. -/
theorem evaluate_build_of_mem {ps : List (Predicate α)} (h : const (!k.unit) ∈ ps) (state : σ) :
    (evaluate ask state (k.build ps)).1 = !k.unit := by
  rw [evaluate_build]
  induction ps generalizing state with
  | nil => cases h
  | cons p ps ih =>
    rw [evaluateEach_cons]
    rcases List.mem_cons.mp h with rfl | h
    · simp [evaluate]
    · rcases evaluate ask state p with ⟨answer, later⟩
      by_cases hanswer : answer = k.unit
      · simp [hanswer, ih h later]
      · simpa [hanswer] using Bool.eq_not.mpr hanswer

end Connective

/-- A folded negation is asked like the plain one. -/
theorem evaluate_negate (state : σ) (p : Predicate α) : evaluate ask state p.negate = evaluate ask state (not p) := by
  unfold negate
  split
  next => simp [evaluate]
  next => simp [evaluate]
  next => rfl

end Evaluation

/-! ## Truth -/

section Truth

variable (truth : α → Bool)

theorem Connective.holds_join (k : Connective) (ps : List (Predicate α)) :
    holds truth (k.join ps) = holds truth (k.build ps) := by
  by_cases hmem : const (!k.unit) ∈ ps
  · rw [join_of_mem hmem, holds_const, holds, evaluate_build_of_mem _ hmem]
  · rw [holds, evaluate_join _ hmem, holds]

theorem holds_all (ps : List (Predicate α)) : holds truth (all ps) = ps.all (holds truth) :=
  (Connective.holds_join truth .conjunction ps).trans (holds_and truth ps)

theorem holds_any (ps : List (Predicate α)) : holds truth (any ps) = ps.any (holds truth) :=
  (Connective.holds_join truth .disjunction ps).trans (holds_or truth ps)

theorem holds_negate (p : Predicate α) : holds truth p.negate = !holds truth p := by
  rw [holds, evaluate_negate, ← holds, holds_not]

end Truth

end LabelFilter.Predicate
