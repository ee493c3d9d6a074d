import LabelFilter.View

/-!
# Stores of growing selectors

A selector that grows after others have come to refer to it lives in a cell. A `Store` holds the cells in the order in
which they were made, and a cell is known by its index. A `Live` reference stands for a cell, for a view that is
settled, or for several references one after the other. `Live.observe` is the view that a reference gives of a
store, so a reference made once sees a cell grow.
-/

namespace LabelFilter

/-- A selector that may grow, in what holds it. -/
structure Cell where
  holder : Holder
  content : Selector
  deriving DecidableEq, Repr

structure Store where
  cells : List Cell
  deriving DecidableEq, Repr

namespace Store

def empty : Store := ⟨[]⟩

/-- The store with a new cell, and its index. -/
def make (store : Store) (cell : Cell) : Store × Nat := (⟨store.cells ++ [cell]⟩, store.cells.length)

/-- Adds expressions to a cell until one has a defect. The ones before it stay. -/
def grow (store : Store) (index : Nat) (es : List Expression) : Store × Option Defect :=
  match store.cells[index]? with
  | none => (store, none)
  | some cell =>
    let (content, defect?) := cell.content.addAll es
    (⟨store.cells.set index ⟨cell.holder, content⟩⟩, defect?)

/-- The view of a cell. A cell that has not been made is empty. -/
def view (store : Store) (index : Nat) : View :=
  match store.cells[index]? with
  | none => .list []
  | some cell => .held cell.holder (.selector cell.content)

end Store

/-- A reference to what a store holds. -/
inductive Live
  | cell (index : Nat)
  | settled (view : View)
  /-- The sources, in order. -/
  | combined (sources : List Live)

namespace Live

mutual

/-- The view that a reference gives of a store. -/
def observe (store : Store) : Live → View
  | cell index => store.view index
  | settled v => v
  | combined sources => View.combine (observeAll store sources)

def observeAll (store : Store) : List Live → List View
  | [] => []
  | l :: ls => observe store l :: observeAll store ls

end

end Live

end LabelFilter
