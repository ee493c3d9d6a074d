import LabelFilter.View

/-!
# The expressions of a view

`View.expressions` is the list that a view stands for. Visiting a view is visiting that list (`visit_eq`), so every
question about a view is a question about a list: `fold_eq`, `all_eq`, `gather_eq` and what follows from them.
-/

namespace LabelFilter.View

mutual

/-- The expressions of a view, in order. -/
def expressions : View → List Expression
  | selector s => s.expressions
  | list es => es
  | combined sources => expressionsAll sources
  | held _ v => expressions v

def expressionsAll : List View → List Expression
  | [] => []
  | v :: vs => expressions v ++ expressionsAll vs

end

@[simp] theorem expressions_selector (s : Selector) : (selector s).expressions = s.expressions := by simp [expressions]

@[simp] theorem expressions_list (es : List Expression) : (list es).expressions = es := by simp [expressions]

@[simp] theorem expressions_held (holder : Holder) (v : View) : (held holder v).expressions = v.expressions := by
  simp [expressions]

theorem expressionsAll_eq (vs : List View) : expressionsAll vs = vs.flatMap expressions := by
  induction vs with
  | nil => simp [expressionsAll]
  | cons v vs ih => simp [expressionsAll, ih]

@[simp] theorem expressions_combined (sources : List View) :
    (combined sources).expressions = sources.flatMap expressions := by
  simp [expressions, expressionsAll_eq]

@[simp] theorem expressions_combine (sources : List View) :
    (combine sources).expressions = sources.flatMap expressions := by
  simp [combine]

/-! ## Visiting -/

section Visiting

variable {σ : Type} (visitor : σ → Expression → ForInStep σ)

/-- Visiting two lists one after the other: the second is not visited once the visitor is done. -/
theorem visitList_append (state : σ) (es fs : List Expression) :
    visitList visitor state (es ++ fs) =
      match visitList visitor state es with
      | .yield state => visitList visitor state fs
      | .done state => .done state := by
  induction es generalizing state with
  | nil => rfl
  | cons e es ih =>
    simp only [List.cons_append, visitList]
    cases visitor state e with
    | yield state => exact ih state
    | done state => rfl

mutual

/-- A visit of a view is a visit of its expressions. -/
theorem visit_eq (state : σ) : ∀ v : View, v.visit visitor state = visitList visitor state v.expressions
  | selector s => by simp [visit]
  | list es => by simp [visit]
  | combined sources => by
    rw [visit, visitAll_eq state sources, expressions]
  | held holder v => by
    rw [visit, visit_eq state v, expressions]

theorem visitAll_eq (state : σ) : ∀ vs : List View,
    visitAll visitor state vs = visitList visitor state (expressionsAll vs)
  | [] => by simp [visitAll, expressionsAll, visitList]
  | v :: vs => by
    rw [visitAll, visit_eq state v, expressionsAll, visitList_append]
    cases visitList visitor state v.expressions with
    | yield state => exact visitAll_eq state vs
    | done state => rfl

end

end Visiting

/-! ## Questions -/

theorem visitList_yield {σ : Type} (f : σ → Expression → σ) (state : σ) (es : List Expression) :
    visitList (fun state e => .yield (f state e)) state es = .yield (es.foldl f state) := by
  induction es generalizing state with
  | nil => rfl
  | cons e es ih => exact ih (f state e)

theorem fold_eq {σ : Type} (f : σ → Expression → σ) (state : σ) (v : View) :
    v.fold f state = v.expressions.foldl f state := by
  rw [fold, visit_eq, visitList_yield]
  rfl

theorem gather_eq {α : Type} (f : Expression → Option α) (v : View) : v.gather f = v.expressions.filterMap f := by
  have gathered : ∀ (es : List Expression) (found : List α),
      es.foldl (fun found e => found ++ (f e).toList) found = found ++ es.filterMap f := by
    intro es
    induction es with
    | nil => simp
    | cons e es ih =>
      intro found
      cases h : f e with
      | none => simp [ih, h]
      | some a => simp [ih, h]
  rw [gather, fold_eq, gathered, List.nil_append]

@[simp] theorem toSelector_expressions (v : View) : v.toSelector.expressions = v.expressions := by
  simp [toSelector, gather_eq]

theorem toSelector_eq {v : View} {s : Selector} (h : v.expressions = s.expressions) : v.toSelector = s :=
  congrArg Selector.mk ((toSelector_expressions v).trans h)

@[simp] theorem count_eq (v : View) : v.count = v.expressions.length := by
  have counted : ∀ (es : List Expression) (n : Nat), es.foldl (fun n _ => n + 1) n = n + es.length := by
    intro es
    induction es with
    | nil => simp
    | cons e es ih =>
      intro n
      rw [List.foldl_cons, ih, List.length_cons]
      omega
  rw [count, fold_eq, counted, Nat.zero_add]

/-- A question without a state is asked of the expressions. -/
theorem all_eq (p : Expression → Bool) (v : View) : v.all p = v.expressions.all p := by
  rw [all, allWith, visit_eq]
  induction v.expressions with
  | nil => rfl
  | cons e es ih =>
    rw [List.all_cons, ← ih]
    cases h : p e <;> simp [visitList, h]

theorem forLabel_eq (name : String) (v : View) :
    v.forLabel name = v.expressions.filter fun e => decide (e.name = name) := by
  rw [forLabel, gather_eq]
  induction v.expressions with
  | nil => rfl
  | cons e es ih => by_cases h : e.name = name <;> simp [h, ih]

end LabelFilter.View
