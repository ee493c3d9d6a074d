import LabelFilter.Expression

/-!
# Selectors

A selector is a list of expressions, all of which must hold. It grows at its end, by expressions that can be
written down and read back (`add`); `ofExpressions` takes any expressions.
-/

namespace LabelFilter

/-- A conjunction of expressions, in order. -/
structure Selector where
  expressions : List Expression
  deriving DecidableEq, Repr

namespace Selector

/-- The selector that everything satisfies. -/
def empty : Selector := ⟨[]⟩

def ofExpressions (es : List Expression) : Selector := ⟨es⟩

def size (s : Selector) : Nat := s.expressions.length

def isEmpty (s : Selector) : Bool := s.expressions.isEmpty

/-- The written form: expressions with a comma and a space between them. -/
def text (s : Selector) : String := ", ".intercalate (s.expressions.map Expression.text)

/-- The selector with one more expression at its end, if the expression can be written down and read back. -/
def add (s : Selector) (e : Expression) : Except Defect Selector :=
  match e.defect? with
  | some d => .error d
  | none => .ok ⟨s.expressions ++ [e]⟩

/-- Adds expressions until one has a defect. The ones before it stay. -/
def addAll (s : Selector) : List Expression → Selector × Option Defect
  | [] => (s, none)
  | e :: es =>
    match s.add e with
    | .ok s => s.addAll es
    | .error d => (s, some d)

/-- The expressions before the first one with a defect are added at the end. -/
theorem addAll_expressions (s : Selector) (es : List Expression) :
    (s.addAll es).1.expressions = s.expressions ++ es.takeWhile fun e => e.defect?.isNone := by
  induction es generalizing s with
  | nil => exact (List.append_nil _).symm
  | cons e es ih =>
    rw [addAll, add, List.takeWhile_cons]
    cases h : e.defect? with
    | none =>
      have hadded := ih ⟨s.expressions ++ [e]⟩
      rwa [List.append_assoc] at hadded
    | some d => exact (List.append_nil _).symm

end Selector

end LabelFilter
