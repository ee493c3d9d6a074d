import LabelFilter.Store

/-!
# Sessions

A session names the selectors that are worked with. A name stands for a selector that may grow, for a live view of
others, or for a frozen selector. Steps make such selectors from one another; a step that fails changes nothing, and
binding a name again does not change the views that refer to what it stood for (`Session.perform`).
-/

namespace LabelFilter

/-- What a name stands for. -/
inductive Slot
  /-- A selector that may grow, in a cell. -/
  | owned (index : Nat)
  /-- A live view of several sources. -/
  | view (sources : List Live)
  /-- A selector that does not change any more. -/
  | frozen (view : View)

def Slot.live : Slot → Live
  | owned index => .cell index
  | view sources => .combined sources
  | frozen v => .settled v

/-- How a frozen selector is kept. -/
inductive Form
  | plain
  | shared
  /-- As the bare list of its expressions. -/
  | list
  deriving DecidableEq, Repr

def Form.freeze : Form → Selector → View
  | plain, s => .selector s
  | shared, s => .held .shared (.selector s)
  | list, s => .list s.expressions

/-- Why a step cannot be taken. -/
inductive SessionFault
  /-- The name stands for nothing. -/
  | noSlot (name : String)
  /-- The name does not stand for a selector that may grow. -/
  | readOnly (name : String)
  deriving DecidableEq, Repr

inductive Step
  | own (name : String) (holder : Holder) (content : Selector)
  | copy (name source : String) (holder : Holder)
  | freeze (name source : String) (form : Form)
  /-- Adds expressions until one has a defect. -/
  | grow (name : String) (chain : List Expression)
  | combine (name : String) (sources : List String)
  | merge (name : String) (sources : List String)
  deriving DecidableEq, Repr

structure Session where
  store : Store
  slots : List (String × Slot)

namespace Session

def empty : Session := ⟨.empty, []⟩

/-- What a name stands for. -/
def slot (s : Session) (name : String) : Except SessionFault Slot :=
  match s.slots.lookup name with
  | some slot => .ok slot
  | none => .error (.noSlot name)

/-- The view of what a name stands for. -/
def view (s : Session) (name : String) : Except SessionFault View :=
  (fun slot => slot.live.observe s.store) <$> s.slot name

/-- The number of sources of a live view. -/
def sourceCount? (s : Session) (name : String) : Except SessionFault (Option Nat) := do
  match ← s.slot name with
  | .view sources => return some sources.length
  | _ => return none

/-- The written form of what a name stands for: a live view is rendered, a selector is written out. -/
def text (s : Session) (name : String) : Except SessionFault String := do
  match ← s.slot name with
  | .view sources => return ((Live.combined sources).observe s.store).render
  | slot => return (slot.live.observe s.store).toSelector.text

/-- A live view in words. -/
def description? (s : Session) (name : String) : Except SessionFault (Option String) := do
  match ← s.slot name with
  | .view sources => return some (View.describeCombined (Live.observeAll s.store sources))
  | _ => return none

/-- What the names stand for, or the fault of the first name that stands for nothing. -/
def slotsOf (s : Session) (names : List String) : Except SessionFault (List Slot) := names.mapM s.slot

/-- The cell of a name that stands for a selector that may grow. -/
def cellOf (s : Session) (name : String) : Except SessionFault Nat :=
  match s.slot name with
  | .ok (.owned index) => .ok index
  | .ok _ => .error (.readOnly name)
  | .error e => .error e

/-- A name stands for something else from now on. -/
def bind (s : Session) (name : String) (slot : Slot) : Session := ⟨s.store, (name, slot) :: s.slots⟩

/-- A name stands for a new cell from now on. -/
def own (s : Session) (name : String) (holder : Holder) (content : Selector) : Session :=
  let (store, index) := s.store.make ⟨holder, content⟩
  bind ⟨store, s.slots⟩ name (.owned index)

/-- A step, with the defect that ended the growth of a selector, if one did. -/
def perform (s : Session) : Step → Except SessionFault (Session × Option Defect)
  | .own name holder content => .ok (s.own name holder content, none)
  | .copy name source holder => do
    let v ← s.view source
    return (s.own name holder v.toSelector, none)
  | .freeze name source form => do
    let v ← s.view source
    return (s.bind name (.frozen (form.freeze v.toSelector)), none)
  | .grow name chain => do
    let index ← s.cellOf name
    let (store, defect?) := s.store.grow index chain
    return (⟨store, s.slots⟩, defect?)
  | .combine name sources => do
    let slots ← s.slotsOf sources
    return (s.bind name (.view (slots.map Slot.live)), none)
  | .merge name sources => do
    let slots ← s.slotsOf sources
    return (s.own name .cell (View.merge (slots.map fun slot => slot.live.observe s.store)), none)

/-- The session after a list of steps, of which those that cannot be taken change nothing. -/
def run (s : Session) : List Step → Session
  | [] => s
  | step :: steps =>
    match s.perform step with
    | .ok (s, _) => s.run steps
    | .error _ => s.run steps

/-- A writer that fails while it holds what a name stands for leaves a mark behind. Only locks keep such a mark, and the
selector is as it was. -/
def noticesFailure (s : Session) (name : String) : Except SessionFault Bool := do
  match ← s.slot name with
  | .owned index => return (s.store.cells[index]?.map fun c => c.holder == .lock).getD false
  | _ => return false

end Session

end LabelFilter
