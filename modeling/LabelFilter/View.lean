import LabelFilter.Selector

/-!
# Views of selectors

A `View` is anything whose expressions can be read in order: a selector, a bare list of expressions, several views
one after the other, or a view that something else holds. All questions about a view are asked by visiting its
expressions (`View.visit`), which stops as soon as the visitor wants to stop.
-/

namespace LabelFilter

/-- What holds a selector. For reading it makes no difference. -/
inductive Holder
  /-- A reference that others may share. -/
  | shared
  /-- A place whose content may grow. -/
  | cell
  /-- A place whose content may grow, by one writer at a time. A lock notices when a writer fails. -/
  | lock
  deriving DecidableEq, Repr

inductive View
  | selector (s : Selector)
  | list (expressions : List Expression)
  /-- The expressions of all sources, in order. -/
  | combined (sources : List View)
  | held (holder : Holder) (view : View)

namespace View

/-- Visits a list of expressions until the visitor is done. -/
def visitList {σ : Type} (visitor : σ → Expression → ForInStep σ) (state : σ) : List Expression → ForInStep σ
  | [] => .yield state
  | e :: es =>
    match visitor state e with
    | .yield state => visitList visitor state es
    | .done state => .done state

mutual

/-- Visits the expressions in order until the visitor is done. The answer tells whether it was. -/
def visit {σ : Type} (visitor : σ → Expression → ForInStep σ) (state : σ) : View → ForInStep σ
  | selector s => visitList visitor state s.expressions
  | list es => visitList visitor state es
  | combined sources => visitAll visitor state sources
  | held _ v => visit visitor state v

def visitAll {σ : Type} (visitor : σ → Expression → ForInStep σ) (state : σ) : List View → ForInStep σ
  | [] => .yield state
  | v :: vs =>
    match visit visitor state v with
    | .yield state => visitAll visitor state vs
    | .done state => .done state

end

/-- Visits all expressions. -/
def fold {σ : Type} (f : σ → Expression → σ) (state : σ) (v : View) : σ :=
  (v.visit (fun state e => .yield (f state e)) state).value

/-- Asks each expression until one says no. The question may keep a state. -/
def allWith {σ : Type} (question : σ → Expression → Bool × σ) (state : σ) (v : View) : Bool × σ :=
  let visitor (state : σ) (e : Expression) : ForInStep σ :=
    match question state e with
    | (true, state) => .yield state
    | (false, state) => .done state
  match v.visit visitor state with
  | .yield state => (true, state)
  | .done state => (false, state)

/-- All expressions have the property. -/
def all (p : Expression → Bool) (v : View) : Bool := (v.allWith (fun _ e => (p e, ())) ()).1

/-- What is gathered from the expressions, in order. -/
def gather {α : Type} (f : Expression → Option α) (v : View) : List α :=
  v.fold (fun found e => found ++ (f e).toList) []

/-- The expressions as a selector of their own. -/
def toSelector (v : View) : Selector := ⟨v.gather some⟩

def count (v : View) : Nat := v.fold (fun n _ => n + 1) 0

/-- The name and the value of each expression that asks for one value. -/
def exactMatches (v : View) : List (String × String) :=
  v.gather fun e => e.exactValue?.map (e.name, ·)

/-- The names of the labels, each where it first comes up. -/
def labels (v : View) : List String :=
  v.fold (fun names e => if e.name ∈ names then names else names ++ [e.name]) []

/-- The expressions on one label. -/
def forLabel (name : String) (v : View) : List Expression :=
  v.gather fun e => if e.name = name then some e else none

/-- The written form: an expression is set off by a comma and a space from the text before it, if there is any. -/
def render (v : View) : String :=
  v.fold (fun out e => if out.isEmpty then out ++ e.text else out ++ ", " ++ e.text) ""

/-- The views have the same expressions in the same order. -/
def sequenceEq (v w : View) : Bool := v.toSelector == w.toSelector

/-- A view of several sources. -/
def combine (sources : List View) : View := combined sources

/-- The expressions of the sources, without those that are equal to an earlier one. -/
def merge (sources : List View) : Selector :=
  ⟨sources.foldl (fun kept v => v.fold (fun kept e => if e ∈ kept then kept else kept ++ [e]) kept) []⟩

/-- A combined view in words: the number of its sources, and its written form. -/
def describeCombined (sources : List View) : String :=
  "Combined \x7b sources: " ++ toString sources.length ++ ", selector: " ++
    Text.quoteString (combine sources).render ++ " \x7d"

end View

end LabelFilter
