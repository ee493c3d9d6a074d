import LabelFilter.Proofs.Predicate.Folding

/-!
# The tests that are asked

Folding keeps what evaluation does, test by test (`evaluatesAs_folded`): a folded tree has the answer of the plain one and
asks the same tests in the same order, whatever is asked before and however the answers depend on it. The one exception is
a group with a member that is a constant and decides it. That group is folded away and asks nothing, while the plain one
asks the members before the constant.

The trees may be any, with groups of none or of one and constants deep inside.
-/

namespace LabelFilter.Predicate

variable {α σ : Type}

/-- Asking, with a record of the tests that are asked. -/
def recording (ask : σ → α → Bool × σ) (state : σ × List α) (t : α) : Bool × (σ × List α) :=
  match ask state.1 t with
  | (answer, later) => (answer, later, state.2 ++ [t])

/-- The tests that are asked to decide the tree, in order. -/
def trace (ask : σ → α → Bool × σ) (state : σ) (p : Predicate α) : List α :=
  (p.evaluate (recording ask) (state, [])).2.2

/-- The folded tree is evaluated as the plain one is, but without asking if that is decided. -/
structure EvaluatesAs (ask : σ → α → Bool × σ) (state : σ) (folded plain : Predicate α) (decided : Prop) : Prop where
  answer : (folded.evaluate ask state).1 = (plain.evaluate ask state).1
  asked : ¬decided → folded.trace ask state = plain.trace ask state
  silent : decided → folded.trace ask state = []

section Evaluation

variable (ask : σ → α → Bool × σ)

/-- What is evaluated alike is evaluated as the other, test by test. -/
theorem EvaluatesAs.of_evaluate_eq {folded plain : Predicate α} {state : σ}
    (h : ∀ {τ : Type} (ask : τ → α → Bool × τ) (state : τ), folded.evaluate ask state = plain.evaluate ask state)
    {decided : Prop} (hopen : ¬decided) : EvaluatesAs ask state folded plain decided where
  answer := by rw [h ask]
  asked _ := by rw [trace, trace, h (recording ask)]
  silent hdecided := absurd hdecided hopen

theorem Connective.evaluatesAs_join (k : Connective) (state : σ) (ps : List (Predicate α)) :
    EvaluatesAs ask state (k.join ps) (k.build ps) (const (!k.unit) ∈ ps) := by
  by_cases hmem : const (!k.unit) ∈ ps
  · refine ⟨?_, fun hopen => absurd hmem hopen, fun _ => ?_⟩
    · rw [join_of_mem hmem, evaluate_build_of_mem ask hmem, evaluate]
    · rw [join_of_mem hmem, trace, evaluate]
  · exact .of_evaluate_eq ask (fun ask state => evaluate_join ask hmem state) hmem

end Evaluation

/-- **Folding keeps evaluation.** However tests are decided, a folded conjunction, disjunction or negation has the answer
of the plain one and asks the same tests in the same order, except that it asks nothing if a member is the constant that
decides the group. -/
theorem evaluatesAs_folded (ask : σ → α → Bool × σ) (state : σ) :
    (∀ ps, EvaluatesAs ask state (all ps) (and ps) (const false ∈ ps)) ∧
    (∀ ps, EvaluatesAs ask state (any ps) (or ps) (const true ∈ ps)) ∧
    ∀ p, EvaluatesAs ask state p.negate (not p) False :=
  ⟨Connective.evaluatesAs_join ask .conjunction state, Connective.evaluatesAs_join ask .disjunction state,
    fun p => .of_evaluate_eq ask (fun ask state => evaluate_negate ask state p) id⟩

/-- Only a member that is itself the constant is seen by folding. -/
example : (all [test 'a', const false]).trace (fun n _ => (n == 0, n + 1)) 0 = [] ∧
    (all [test 'a', and [const false]]).trace (fun n _ => (n == 0, n + 1)) 0 = ['a'] := by decide

end LabelFilter.Predicate
