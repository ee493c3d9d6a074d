import LabelFilter.Store
import LabelFilter.View.Expressions

/-!
# What references see of a store

A reference comes down to cells and to expressions that are settled (`Live.segments`), and sees what these hold, one
after the other (`Live.expressions_observe`). Only the contents of cells depend on the store. A store changes in two
ways: a new cell comes to it, which no reference to its other cells sees (`Store.content_make`), or a cell grows at its
end, and all others stay as they are (`Store.content_grow`).
-/

namespace LabelFilter

/-! ## Contents of cells -/

namespace Store

/-- The expressions in a cell. A cell that has not been made has none. -/
def content (store : Store) (index : Nat) : List Expression := (store.view index).expressions

theorem content_of_getElem? {store : Store} {index : Nat} {cell : Cell} (h : store.cells[index]? = some cell) :
    store.content index = cell.content.expressions := by
  rw [content, view, h, View.expressions_held, View.expressions_selector]

/-- The contents of two cells are the same if the cells are. -/
theorem content_congr {store other : Store} {index : Nat} (h : store.cells[index]? = other.cells[index]?) :
    store.content index = other.content index := by
  rw [content, content, view, view, h]

theorem length_make (store : Store) (cell : Cell) : (store.make cell).1.cells.length = store.cells.length + 1 := by
  simp [make]

/-- A new cell leaves those that there are. -/
theorem content_make {store : Store} {index : Nat} (h : index < store.cells.length) (cell : Cell) :
    (store.make cell).1.content index = store.content index :=
  content_congr (List.getElem?_append_left h)

theorem content_make_self (store : Store) (cell : Cell) :
    (store.make cell).1.content store.cells.length = cell.content.expressions :=
  content_of_getElem? (by simp [make])

theorem length_grow (store : Store) (index : Nat) (es : List Expression) :
    (store.grow index es).1.cells.length = store.cells.length := by
  unfold grow
  split
  next => rfl
  next => exact List.length_set

/-- A cell grows at its end, and no other cell changes. -/
theorem content_grow {store : Store} {index : Nat} (h : index < store.cells.length) (es : List Expression) (i : Nat) :
    (store.grow index es).1.content i =
      store.content i ++ if index = i then es.takeWhile fun e => e.defect?.isNone else [] := by
  obtain ⟨cell, hcell⟩ : ∃ cell, store.cells[index]? = some cell := ⟨_, List.getElem?_eq_getElem h⟩
  have hgrow : (store.grow index es).1.cells =
      store.cells.set index ⟨cell.holder, (cell.content.addAll es).1⟩ := by
    simp only [grow, hcell]
  split
  next hi =>
    subst hi
    have hnew : (store.grow index es).1.cells[index]? = some ⟨cell.holder, (cell.content.addAll es).1⟩ := by
      rw [hgrow, List.getElem?_set_self h]
    rw [content_of_getElem? hnew, content_of_getElem? hcell, Selector.addAll_expressions]
  next hi =>
    rw [List.append_nil]
    exact content_congr (by rw [hgrow, List.getElem?_set_ne hi])

end Store

/-! ## Segments of references -/

/-- Where a part of what a reference sees comes from. -/
inductive Segment
  | cell (index : Nat)
  | settled (expressions : List Expression)

/-- What a store has there. -/
def Segment.content (store : Store) : Segment → List Expression
  | cell index => store.content index
  | settled es => es

namespace Live

mutual

/-- The cells and the settled expressions that a reference comes down to, in order. -/
def segments : Live → List Segment
  | cell index => [.cell index]
  | settled v => [.settled v.expressions]
  | combined sources => segmentsAll sources

def segmentsAll : List Live → List Segment
  | [] => []
  | l :: ls => segments l ++ segmentsAll ls

end

theorem segmentsAll_eq (ls : List Live) : segmentsAll ls = ls.flatMap segments := by
  induction ls with
  | nil => simp [segmentsAll]
  | cons l ls ih => simp [segmentsAll, ih]

@[simp] theorem segments_cell (index : Nat) : (cell index).segments = [.cell index] := by simp [segments]

@[simp] theorem segments_settled (v : View) : (settled v).segments = [.settled v.expressions] := by simp [segments]

@[simp] theorem segments_combined (sources : List Live) : (combined sources).segments = sources.flatMap segments := by
  simp [segments, segmentsAll_eq]

theorem observeAll_eq (store : Store) (ls : List Live) : observeAll store ls = ls.map (observe store) := by
  induction ls with
  | nil => simp [observeAll]
  | cons l ls ih => simp [observeAll, ih]

mutual

/-- A reference sees the contents of its segments, one after the other. -/
theorem expressions_observe (store : Store) : ∀ l : Live,
    (l.observe store).expressions = l.segments.flatMap (Segment.content store)
  | cell index => by simp [observe, Segment.content, Store.content]
  | settled v => by simp [observe, Segment.content]
  | combined sources => by
    rw [observe, View.expressions_combine, expressions_observeAll store sources, segments]

theorem expressions_observeAll (store : Store) : ∀ ls : List Live,
    (observeAll store ls).flatMap View.expressions = (segmentsAll ls).flatMap (Segment.content store)
  | [] => by simp [observeAll, segmentsAll]
  | l :: ls => by
    rw [observeAll, List.flatMap_cons, expressions_observe store l, expressions_observeAll store ls, segmentsAll,
      List.flatMap_append]

end

/-- A combined reference sees what its sources see, one after the other. -/
theorem expressions_observe_combined (store : Store) (sources : List Live) :
    ((combined sources).observe store).expressions = sources.flatMap fun l => (l.observe store).expressions := by
  rw [observe, View.expressions_combine, observeAll_eq, List.flatMap_map]

/-- The reference is to cells among the first `n` ones. -/
def Within (n : Nat) (l : Live) : Prop := ∀ index, .cell index ∈ l.segments → index < n

theorem Within.mono {l : Live} {n m : Nat} (h : l.Within n) (hle : n ≤ m) : l.Within m :=
  fun index hindex => Nat.lt_of_lt_of_le (h index hindex) hle

end Live

end LabelFilter
