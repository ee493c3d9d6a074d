import Mathlib.Data.List.Induction

/-!
# Last pairs

Pairs of a name and a value can be put into something that has one value for a name, one pair after the other. Each
pair takes the place of the earlier ones of its name (`Overwrites`), so in the end those pairs count that no later
pair of their name follows, which are the `lastPairs` of the list (`Overwrites.iff_mem_lastPairs`). It makes no
difference how the pairs are kept meanwhile: they are followed through a list that grows at its end.
-/

namespace LabelFilter

variable {α β : Type}

/-- The pairs that no later pair of their name follows. -/
def lastPairs : List (String × α) → List (String × α)
  | [] => []
  | p :: ps => if p.1 ∈ ps.map Prod.fst then lastPairs ps else p :: lastPairs ps

/-- A pair at the end takes the place of the others of its name. -/
theorem lastPairs_concat (pairs : List (String × α)) (p : String × α) :
    lastPairs (pairs ++ [p]) = (lastPairs pairs).filter (fun q => q.1 ≠ p.1) ++ [p] := by
  induction pairs with
  | nil => simp [lastPairs]
  | cons q pairs ih =>
    have hnames : q.1 ∈ (pairs ++ [p]).map Prod.fst ↔ q.1 ∈ pairs.map Prod.fst ∨ q.1 = p.1 := by simp
    rw [List.cons_append, lastPairs, lastPairs, ih]
    by_cases hlater : q.1 ∈ pairs.map Prod.fst
    · rw [if_pos (hnames.mpr (.inl hlater)), if_pos hlater]
    · by_cases hp : q.1 = p.1
      · rw [if_pos (hnames.mpr (.inr hp)), if_neg hlater, List.filter_cons_of_neg (by simpa using hp)]
      · rw [if_neg fun h => (hnames.mp h).elim hlater hp, if_neg hlater, List.filter_cons_of_pos (by simpa using hp),
          List.cons_append]

/-- Other values under the same names do not change which pairs are the last. -/
theorem lastPairs_map (f : α → β) (pairs : List (String × α)) :
    lastPairs (pairs.map fun p => (p.1, f p.2)) = (lastPairs pairs).map fun p => (p.1, f p.2) := by
  have hnames : ∀ ps : List (String × α), (ps.map fun p => (p.1, f p.2)).map Prod.fst = ps.map Prod.fst :=
    fun ps => List.map_map
  induction pairs with
  | nil => rfl
  | cons p pairs ih =>
    rw [List.map_cons, lastPairs, lastPairs, hnames, ih]
    split
    · rfl
    · rw [List.map_cons]

/-- Of a list of pairs, those count that were put in last: each pair takes the place of the earlier ones of its name. -/
structure Overwrites (counts : List (String × α) → String × α → Prop) : Prop where
  nil : ∀ q, ¬counts [] q
  concat : ∀ pairs p q, counts (pairs ++ [p]) q ↔ q = p ∨ q.1 ≠ p.1 ∧ counts pairs q

/-- Look-ups that see a pair at the end before the others. -/
theorem Overwrites.of_lookUp (get : List (String × α) → String → Option α) (nil : ∀ name, get [] name = none)
    (concat : ∀ pairs p name, get (pairs ++ [p]) name = if p.1 = name then some p.2 else get pairs name) :
    Overwrites fun pairs q => get pairs q.1 = some q.2 where
  nil q := by
    rw [nil]
    exact nofun
  concat pairs p q := by
    obtain ⟨name, value⟩ := p
    obtain ⟨asked, found⟩ := q
    rw [concat]
    by_cases h : name = asked
    · subst h
      simp [eq_comm]
    · simp [h, Ne.symm h]

/-- Where pairs overwrite one another, the last pairs count. -/
theorem Overwrites.iff_mem_lastPairs {counts : List (String × α) → String × α → Prop} (h : Overwrites counts)
    (pairs : List (String × α)) (q : String × α) : counts pairs q ↔ q ∈ lastPairs pairs := by
  induction pairs using List.reverseRecOn with
  | nil => exact iff_of_false (h.nil q) List.not_mem_nil
  | append_singleton pairs p ih =>
    rw [h.concat, ih, lastPairs_concat, List.mem_append, List.mem_filter, List.mem_singleton, decide_eq_true_iff,
      or_comm, and_comm]

end LabelFilter
