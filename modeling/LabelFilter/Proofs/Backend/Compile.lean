import LabelFilter.Backend
import LabelFilter.Matching
import LabelFilter.Proofs.Predicate.Folding
import LabelFilter.View.Expressions

/-!
# Compiled filters

A backend answers for a row as a set of labels does if its three tests do (`Backend.Answers`). A compiled filter then
accepts the row exactly if the labels satisfy the view (`Backend.Answers.accepts_compile`): what an expression asks for
is split between the batch and its clause, and neither has the whole of it nor anything else.
-/

namespace LabelFilter

variable {Test Row : Type}

/-- The tests of a row have the answers of a set of labels. -/
structure Backend.Answers (b : Backend Test Row) (row : Row) (labels : LabelSet) : Prop where
  contains : ∀ name value, b.holds (b.contains name value) row = labels.hasPair name value
  hasName : ∀ name, b.holds (b.hasName name) row = labels.hasName name
  containsAll : ∀ pairs, (b.containsAll pairs).holds (fun t => b.holds t row) =
    pairs.all fun p => labels.hasPair p.1 p.2

namespace Backend.Answers

variable {b : Backend Test Row} {row : Row} {labels : LabelSet}

/-- The batch and the clause of an expression hold together exactly if the labels satisfy it. -/
theorem accepts_expression (h : b.Answers row labels) (e : Expression) :
    ((e.exactValue?.all fun v => labels.hasPair e.name v) &&
      (b.clause? e).all fun p => p.holds fun t => b.holds t row) = e.accepts labels := by
  obtain ⟨name, operator, values⟩ := e
  cases operator with
  | oneOf =>
    match values with
    | [] => rfl
    | [v] => simp [Expression.exactValue?, clause?, Expression.accepts]
    | v :: w :: vs =>
      simp [Expression.exactValue?, clause?, Expression.accepts, Predicate.holds_any, Function.comp_def, h.contains]
  | noneOf =>
    match values with
    | [] => rfl
    | v :: vs =>
      simp [Expression.exactValue?, clause?, Expression.accepts, Predicate.holds_all, Predicate.holds_negate,
        Function.comp_def, h.contains]
  | present => simp [Expression.exactValue?, clause?, Expression.accepts, h.hasName]
  | absent => simp [Expression.exactValue?, clause?, Expression.accepts, Predicate.holds_negate, h.hasName]

/-- What is gathered from expressions has a property exactly if what each of them gives has it. -/
theorem all_gather {α : Type} (f : Expression → Option α) (p : α → Bool) (v : View) :
    (v.gather f).all p = v.expressions.all fun e => (f e).all p := by
  rw [View.gather_eq, List.all_filterMap]
  rfl

/-- Two properties that all members have are one that all members have. -/
theorem all_and_all {α : Type} (p q : α → Bool) (as : List α) :
    (as.all p && as.all q) = as.all fun a => p a && q a := by
  induction as with
  | nil => rfl
  | cons a as ih =>
    rw [List.all_cons, List.all_cons, List.all_cons, ← ih]
    cases p a <;> cases q a <;> simp

/-- A filter accepts a row exactly if the labels that the tests answer for satisfy the view. -/
theorem accepts_compile (h : b.Answers row labels) (v : View) : (b.compile v).accepts row = v.accepts labels := by
  have hsplit : (b.compile v).accepts row =
      ((v.exactMatches.all fun p => labels.hasPair p.1 p.2) &&
        (v.gather b.clause?).all fun p => p.holds fun t => b.holds t row) := by
    rw [Filter.accepts, compile, predicate, Predicate.holds_all, List.all_cons, h.containsAll]
  have hexact : (v.exactMatches.all fun p => labels.hasPair p.1 p.2) =
      v.expressions.all fun e => e.exactValue?.all fun v => labels.hasPair e.name v := by
    rw [View.exactMatches, all_gather]
    congr 1
    funext e
    exact Option.all_map
  rw [hsplit, hexact, all_gather, all_and_all, View.accepts, View.all_eq]
  congr 1
  funext e
  exact h.accepts_expression e

end Backend.Answers

end LabelFilter
