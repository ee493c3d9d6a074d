import LabelFilter.Matching
import LabelFilter.View.Expressions

/-!
# What matching depends on

A view asks a set of labels about the names of its expressions and nothing else, so two sets that answer alike for those
names satisfy the same views (`View.accepts_congr`).
-/

namespace LabelFilter

/-- Whether an element has a property depends on which elements there are. -/
theorem any_eq_of_mem_iff {α : Type} {xs ys : List α} (h : ∀ x, x ∈ xs ↔ x ∈ ys) (p : α → Bool) :
    xs.any p = ys.any p := by
  rw [Bool.eq_iff_iff, List.any_eq_true, List.any_eq_true]
  exact exists_congr fun x => and_congr_left fun _ => h x

/-- The sets of labels give the same answers about a name. -/
def LabelSet.SameAt (name : String) (labels others : LabelSet) : Prop :=
  labels.hasName name = others.hasName name ∧ ∀ value, labels.hasPair name value = others.hasPair name value

theorem Expression.accepts_congr {labels others : LabelSet} {e : Expression} (h : labels.SameAt e.name others) :
    e.accepts labels = e.accepts others := by
  obtain ⟨hname, hpair⟩ := h
  have hpairs : labels.hasPair e.name = others.hasPair e.name := funext hpair
  simp only [accepts, hname, hpairs]

/-- A view is satisfied by two sets alike if they give the same answers about the names of its expressions. -/
theorem View.accepts_congr {labels others : LabelSet} {v : View}
    (h : ∀ e ∈ v.expressions, labels.SameAt e.name others) : v.accepts labels = v.accepts others := by
  rw [View.accepts, View.accepts, View.all_eq, View.all_eq]
  rw [Bool.eq_iff_iff, List.all_eq_true, List.all_eq_true]
  exact forall₂_congr fun e he => by rw [Expression.accepts_congr (h e he)]

end LabelFilter
