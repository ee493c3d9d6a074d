/-!
# Predicates

A predicate is a boolean tree over tests. `Predicate.evaluate` decides it, asking one test after the other and no
more of them than it needs; `Predicate.render` writes it as a boolean expression of SQL.

Predicates are built by `all`, `any` and `negate`, which fold as they build: constants vanish or decide, a group
within a group of its kind is spliced in, a group of one is that one, and a double negation cancels.
-/

namespace LabelFilter

inductive Predicate (α : Type)
  | const (value : Bool)
  | test (test : α)
  | not (predicate : Predicate α)
  | and (predicates : List (Predicate α))
  | or (predicates : List (Predicate α))

namespace Predicate

variable {α : Type}

/-- What every set of labels satisfies. -/
def always : Predicate α := const true

/-- What no set of labels satisfies. -/
def never : Predicate α := const false

/-! ## Building -/

def isConst (value : Bool) : Predicate α → Bool
  | const b => b == value
  | _ => false

/-- The members that a predicate adds to a conjunction. -/
def conjuncts : Predicate α → List (Predicate α)
  | const true => []
  | and ps => ps
  | p => [p]

/-- The members that a predicate adds to a disjunction. -/
def disjuncts : Predicate α → List (Predicate α)
  | const false => []
  | or ps => ps
  | p => [p]

/-- A group of members: of none it is a constant, and of one that one. -/
def group (empty : Bool) (build : List (Predicate α) → Predicate α) : List (Predicate α) → Predicate α
  | [] => const empty
  | [p] => p
  | ps => build ps

/-- The conjunction of a list, folded. -/
def all (ps : List (Predicate α)) : Predicate α :=
  if ps.any (isConst false) then never else group true and (ps.flatMap conjuncts)

/-- The disjunction of a list, folded. -/
def any (ps : List (Predicate α)) : Predicate α :=
  if ps.any (isConst true) then always else group false or (ps.flatMap disjuncts)

/-- The conjunction of two, folded. -/
def both (p q : Predicate α) : Predicate α := all [p, q]

/-- The disjunction of two, folded. -/
def either (p q : Predicate α) : Predicate α := any [p, q]

/-- The negation, folded. -/
def negate : Predicate α → Predicate α
  | const b => const !b
  | not p => p
  | p => not p

/-! ## Asking -/

mutual

/-- The number of tests in the tree. -/
def testCount : Predicate α → Nat
  | const _ => 0
  | test _ => 1
  | not p => testCount p
  | and ps => testCounts ps
  | or ps => testCounts ps

def testCounts : List (Predicate α) → Nat
  | [] => 0
  | p :: ps => testCount p + testCounts ps

end

mutual

/-- Decides the tree by asking tests from left to right, where the answer to a test may depend on what has been asked
before. A group stops at the first member that decides it. -/
def evaluate {σ : Type} (ask : σ → α → Bool × σ) (state : σ) : Predicate α → Bool × σ
  | const b => (b, state)
  | test t => ask state t
  | not p =>
    match evaluate ask state p with
    | (b, state) => (!b, state)
  | and ps => evaluateAll ask state ps
  | or ps => evaluateAny ask state ps

def evaluateAll {σ : Type} (ask : σ → α → Bool × σ) (state : σ) : List (Predicate α) → Bool × σ
  | [] => (true, state)
  | p :: ps =>
    match evaluate ask state p with
    | (true, state) => evaluateAll ask state ps
    | (false, state) => (false, state)

def evaluateAny {σ : Type} (ask : σ → α → Bool × σ) (state : σ) : List (Predicate α) → Bool × σ
  | [] => (false, state)
  | p :: ps =>
    match evaluate ask state p with
    | (true, state) => (true, state)
    | (false, state) => evaluateAny ask state ps

end

/-- The tree holds when the tests have these answers. -/
def holds (truth : α → Bool) (p : Predicate α) : Bool := (p.evaluate (fun _ t => (truth t, ())) ()).1

/-- The tests that are asked, in order, when they have these answers. -/
def asked (truth : α → Bool) (p : Predicate α) : List α :=
  (p.evaluate (fun before t => (truth t, before ++ [t])) []).2

/-! ## Writing -/

/-- The negation of a written predicate; a group has parentheses already. -/
def renderNot (p : Predicate α) (text : String) : String :=
  match p with
  | and _ | or _ => "NOT " ++ text
  | _ => "NOT (" ++ text ++ ")"

mutual

/-- The boolean expression, with each test in a form of its own. -/
def render (form : α → String) : Predicate α → String
  | const true => "TRUE"
  | const false => "FALSE"
  | test t => form t
  | not p => renderNot p (render form p)
  | and ps => "(" ++ " AND ".intercalate (renderEach form ps) ++ ")"
  | or ps => "(" ++ " OR ".intercalate (renderEach form ps) ++ ")"

def renderEach (form : α → String) : List (Predicate α) → List String
  | [] => []
  | p :: ps => render form p :: renderEach form ps

end

/-! ## Groups as lists -/

variable (truth : α → Bool)

theorem evaluateAll_eq (ps : List (Predicate α)) :
    (evaluateAll (fun _ t => (truth t, ())) () ps).1 = ps.all (holds truth) := by
  induction ps with
  | nil => simp [evaluateAll]
  | cons p ps ih =>
    unfold evaluateAll
    rw [List.all_cons, ← ih]
    unfold holds
    split <;> simp_all

theorem evaluateAny_eq (ps : List (Predicate α)) :
    (evaluateAny (fun _ t => (truth t, ())) () ps).1 = ps.any (holds truth) := by
  induction ps with
  | nil => simp [evaluateAny]
  | cons p ps ih =>
    unfold evaluateAny
    rw [List.any_cons, ← ih]
    unfold holds
    split <;> simp_all

@[simp] theorem holds_const (b : Bool) : holds truth (const b) = b := by simp [holds, evaluate]

@[simp] theorem holds_test (t : α) : holds truth (test t) = truth t := by simp [holds, evaluate]

@[simp] theorem holds_not (p : Predicate α) : holds truth (not p) = !holds truth p := by simp [holds, evaluate]

@[simp] theorem holds_and (ps : List (Predicate α)) : holds truth (and ps) = ps.all (holds truth) := by
  rw [← evaluateAll_eq]
  simp [holds, evaluate]

@[simp] theorem holds_or (ps : List (Predicate α)) : holds truth (or ps) = ps.any (holds truth) := by
  rw [← evaluateAny_eq]
  simp [holds, evaluate]

end Predicate

end LabelFilter
