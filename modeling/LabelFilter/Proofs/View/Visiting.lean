import LabelFilter.Backend
import LabelFilter.Matching
import LabelFilter.View.Expressions

/-!
# Visits, call by call

A visitor is called on the expressions of a view one after the other, through all sources and whatever holds them, until
it is done. `View.Visited` tells what such a visit of a list comes to: which calls are made and how it ends. To see the
calls, a visitor is made to record them (`View.recording`).

Every view is visited as the list of its expressions is, and so gives the same answers as that list
(`View.visit_flattened`).
-/

namespace LabelFilter.View

section Visits

variable {σ : Type} (visitor : σ → Expression → ForInStep σ)

/-- The visitor is called on the expressions one after the other and goes on after each, from a first state to a
last. -/
inductive Passes : σ → List Expression → σ → Prop
  | nil (state : σ) : Passes state [] state
  | cons {state next last : σ} {e : Expression} {es : List Expression} (step : visitor state e = .yield next)
    (rest : Passes next es last) : Passes state (e :: es) last

/-- How a visit of a list ends, and the calls that it makes: all of them, or those up to the first one at which the
visitor is done. -/
inductive Visited (state : σ) (es : List Expression) : ForInStep σ → List Expression → Prop
  | passed {last : σ} (all : Passes visitor state es last) : Visited state es (.yield last) es
  | stopped {before after : List Expression} {e : Expression} {there last : σ} (expressions : es = before ++ e :: after)
    (passed : Passes visitor state before there) (done : visitor there e = .done last) :
    Visited state es (.done last) (before ++ [e])

/-- The end of a visit with a record of calls. -/
def withCalls (calls : List Expression) : ForInStep σ → ForInStep (σ × List Expression)
  | .yield state => .yield (state, calls)
  | .done state => .done (state, calls)

/-- The visitor, recording the expressions that it is called on. -/
def recording (state : σ × List Expression) (e : Expression) : ForInStep (σ × List Expression) :=
  withCalls (state.2 ++ [e]) (visitor state.1 e)

variable {visitor}

/-- A call that goes on comes before the calls of the rest. -/
theorem Visited.cons {state next : σ} {e : Expression} {es calls : List Expression} {outcome : ForInStep σ}
    (step : visitor state e = .yield next) (h : Visited visitor next es outcome calls) :
    Visited visitor state (e :: es) outcome (e :: calls) := by
  cases h with
  | passed all => exact .passed (.cons step all)
  | stopped expressions passed done =>
    exact .stopped (congrArg (e :: ·) expressions) (.cons step passed) done

/-- A list is visited up to the first call at which the visitor is done. -/
theorem visitList_visited (state : σ) (es before : List Expression) :
    ∃ calls, Visited visitor state es (visitList visitor state es) calls ∧
      visitList (recording visitor) (state, before) es = withCalls (before ++ calls) (visitList visitor state es) := by
  induction es generalizing state before with
  | nil => exact ⟨[], .passed (.nil state), by rw [List.append_nil]; rfl⟩
  | cons e es ih =>
    cases hstep : visitor state e with
    | yield next =>
      obtain ⟨calls, hvisited, hrecord⟩ := ih next (before ++ [e])
      have hlist : visitList visitor state (e :: es) = visitList visitor next es := by rw [visitList, hstep]
      have hrecording : recording visitor (state, before) e = .yield (next, before ++ [e]) := by
        rw [recording, hstep]
        rfl
      refine ⟨e :: calls, ?_, ?_⟩
      · rw [hlist]
        exact hvisited.cons hstep
      · rw [hlist, visitList, hrecording, List.append_cons before e calls]
        exact hrecord
    | done last =>
      have hlist : visitList visitor state (e :: es) = .done last := by rw [visitList, hstep]
      have hrecording : recording visitor (state, before) e = .done (last, before ++ [e]) := by
        rw [recording, hstep]
        rfl
      refine ⟨[e], ?_, ?_⟩
      · rw [hlist]
        exact .stopped rfl (.nil state) hstep
      · rw [hlist, visitList, hrecording]
        rfl

end Visits

/-! ## Views with the same answers -/

/-- The views answer every question alike. -/
structure SameAnswers (v w : View) : Prop where
  toSelector : v.toSelector = w.toSelector
  exactMatches : v.exactMatches = w.exactMatches
  labels : v.labels = w.labels
  forLabel : ∀ name, v.forLabel name = w.forLabel name
  render : v.render = w.render
  count : v.count = w.count
  accepts : ∀ labels, v.accepts labels = w.accepts labels
  predicate : ∀ {Test Row : Type} (b : Backend Test Row), b.predicate v = b.predicate w
  /-- Among other sources, too. -/
  merge : ∀ before after, View.merge (before ++ v :: after) = View.merge (before ++ w :: after)

section Answers

variable {v w : View}

theorem fold_congr (h : v.expressions = w.expressions) {σ : Type} (f : σ → Expression → σ) (state : σ) :
    v.fold f state = w.fold f state := by
  rw [fold_eq, fold_eq, h]

theorem gather_congr (h : v.expressions = w.expressions) {α : Type} (f : Expression → Option α) :
    v.gather f = w.gather f := by
  rw [gather_eq, gather_eq, h]

/-- No question tells views with the same expressions apart. -/
theorem SameAnswers.of_expressions (h : v.expressions = w.expressions) : v.SameAnswers w where
  toSelector := congrArg Selector.mk (gather_congr h _)
  exactMatches := gather_congr h _
  labels := fold_congr h _ _
  forLabel _ := gather_congr h _
  render := fold_congr h _ _
  count := fold_congr h _ _
  accepts labels := by rw [View.accepts, View.accepts, all_eq, all_eq, h]
  predicate b := by rw [Backend.predicate, Backend.predicate, View.exactMatches, View.exactMatches, gather_congr h,
    gather_congr h]
  merge before after := by
    simp only [View.merge, List.foldl_append, List.foldl_cons, fold_congr h]

end Answers

/-- **A view is its expressions.** However a view is put together, a visitor is called on its expressions in order, up to
and including the first one at which it is done, and the visit tells whether it was. So the view has the same answers as
the list of its expressions. -/
theorem visit_flattened (v : View) :
    (∀ (σ : Type) (visitor : σ → Expression → ForInStep σ) (state : σ),
      ∃ calls, Visited visitor state v.expressions (v.visit visitor state) calls ∧
        v.visit (recording visitor) (state, []) = withCalls calls (v.visit visitor state)) ∧
    v.SameAnswers (.list v.expressions) := by
  constructor
  · intro σ visitor state
    rw [visit_eq, visit_eq]
    exact visitList_visited state v.expressions []
  · exact .of_expressions (expressions_list v.expressions).symm

end LabelFilter.View
