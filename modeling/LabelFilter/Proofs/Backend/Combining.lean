import LabelFilter.Backend
import LabelFilter.View.Expressions

/-!
# What compiling keeps

A compiled predicate is put together by the combinators, of the tests and the batches that the backend gives. So what these
have and the combinators keep (`Backend.Keeps`), every compiled predicate has (`Backend.Keeps.predicate`).
-/

namespace LabelFilter.Backend

variable {Test Row : Type}

/-- The tests and the batches of the backend have the property, and the combinators keep it. -/
structure Keeps (b : Backend Test Row) (M : Predicate Test → Prop) : Prop where
  contains : ∀ name value, M (.test (b.contains name value))
  hasName : ∀ name, M (.test (b.hasName name))
  containsAll : ∀ pairs, M (b.containsAll pairs)
  all : ∀ {ps}, (∀ p ∈ ps, M p) → M (Predicate.all ps)
  any : ∀ {ps}, (∀ p ∈ ps, M p) → M (Predicate.any ps)
  negate : ∀ {p}, M p → M p.negate

namespace Keeps

variable {b : Backend Test Row} {M : Predicate Test → Prop}

theorem clause (h : b.Keeps M) {e : Expression} {p : Predicate Test} (hp : b.clause? e = some p) : M p := by
  unfold clause? at hp
  split at hp
  · cases hp
  · cases hp
  · cases hp
    exact h.any (List.forall_mem_map.mpr fun v _ => h.contains e.name v)
  · cases hp
  · cases hp
    exact h.all (List.forall_mem_map.mpr fun v _ => h.negate (h.contains e.name v))
  · cases hp
    exact h.hasName e.name
  · cases hp
    exact h.negate (h.hasName e.name)

theorem predicate (h : b.Keeps M) (v : View) : M (b.predicate v) := by
  refine h.all (List.forall_mem_cons.mpr ⟨h.containsAll _, fun p hp => ?_⟩)
  rw [View.gather_eq] at hp
  obtain ⟨e, _, hclause⟩ := List.mem_filterMap.mp hp
  exact h.clause hclause

end Keeps

end LabelFilter.Backend
