import Mathlib.Data.List.Induction

/-!
# First occurrences

Going through a list and keeping what has not come up before leaves each element where it first comes up, which is
`List.eraseDups` (`foldl_eraseDups`). What is left has the same elements, each once, in the order in which they first come
up (`firstOccurrences_eraseDups`). Everything here is by induction on the end of the list, where an element is kept or not
(`eraseDups_concat`).

Leaving out repeats can be done part by part (`eraseDups_append_eraseDups`), before or after what is picked by something
that tells the elements apart (`eraseDups_filterMap`), and before as well as after any map (`eraseDups_map_eraseDups`).
-/

namespace LabelFilter

variable {α β : Type} [BEq α] [LawfulBEq α] [BEq β] [LawfulBEq β]

/-- The list `firsts` has the elements of `xs`, each once and in the order in which they first come up. -/
structure FirstOccurrences (xs firsts : List α) : Prop where
  nodup : firsts.Nodup
  mem_iff : ∀ x, x ∈ firsts ↔ x ∈ xs
  ordered : firsts.Pairwise fun x y => xs.idxOf x < xs.idxOf y

/-- An element at the end is kept if it has not come up before. -/
theorem eraseDups_concat (xs : List α) (x : α) :
    (xs ++ [x]).eraseDups = if x ∈ xs then xs.eraseDups else xs.eraseDups ++ [x] := by
  rw [List.eraseDups_append]
  by_cases h : x ∈ xs <;> simp [List.cons_removeAll, List.eraseDups_cons, h]

/-- Keeping what has not come up before is leaving out repeats. -/
theorem foldl_eraseDups (xs ys : List α) :
    ys.foldl (fun kept y => if y ∈ kept then kept else kept ++ [y]) xs.eraseDups = (xs ++ ys).eraseDups := by
  induction ys generalizing xs with
  | nil => rw [List.foldl_nil, List.append_nil]
  | cons y ys ih =>
    have hstep : (if y ∈ xs.eraseDups then xs.eraseDups else xs.eraseDups ++ [y]) = (xs ++ [y]).eraseDups := by
      simp only [List.mem_eraseDups, eraseDups_concat]
    rw [List.foldl_cons, hstep, ih, List.append_assoc, List.singleton_append]

theorem nodup_eraseDups (xs : List α) : xs.eraseDups.Nodup := by
  induction xs using List.reverseRecOn with
  | nil => simp
  | append_singleton xs x ih =>
    rw [eraseDups_concat]
    split
    · exact ih
    next hnew =>
      refine List.nodup_append.mpr ⟨ih, by simp, fun y hy z hz hyz => hnew ?_⟩
      rw [← List.mem_singleton.mp hz, ← hyz]
      exact List.mem_eraseDups.mp hy

/-- What first comes up earlier stands earlier. -/
theorem pairwise_eraseDups (xs : List α) : xs.eraseDups.Pairwise fun x y => xs.idxOf x < xs.idxOf y := by
  induction xs using List.reverseRecOn with
  | nil => simp
  | append_singleton xs x ih =>
    -- where an element first comes up does not depend on what follows
    have hindex : ∀ y ∈ xs, (xs ++ [x]).idxOf y = xs.idxOf y := fun y hy => by rw [List.idxOf_append, if_pos hy]
    have hearlier : xs.eraseDups.Pairwise fun y z => (xs ++ [x]).idxOf y < (xs ++ [x]).idxOf z := by
      refine ih.imp_of_mem fun hy hz hyz => ?_
      rwa [hindex _ (List.mem_eraseDups.mp hy), hindex _ (List.mem_eraseDups.mp hz)]
    rw [eraseDups_concat]
    split
    · exact hearlier
    next hnew =>
      refine List.pairwise_append.mpr ⟨hearlier, List.pairwise_singleton _ _, fun y hy z hz => ?_⟩
      rw [List.mem_singleton.mp hz, hindex y (List.mem_eraseDups.mp hy), List.idxOf_append, if_neg hnew]
      exact Nat.lt_add_left _ (List.idxOf_lt_length_of_mem (List.mem_eraseDups.mp hy))

/-- Leaving out repeats leaves the first occurrences. -/
theorem firstOccurrences_eraseDups (xs : List α) : FirstOccurrences xs xs.eraseDups :=
  ⟨nodup_eraseDups xs, fun _ => List.mem_eraseDups, pairwise_eraseDups xs⟩

/-! ## Repeats and other operations -/

/-- What has come up before adds nothing. -/
theorem eraseDups_append_of_subset {xs ys : List α} (h : ys ⊆ xs) : (xs ++ ys).eraseDups = xs.eraseDups := by
  have hnone : ys.removeAll xs = [] := by
    rw [List.removeAll, List.filter_eq_nil_iff]
    intro y hy
    simpa using h hy
  rw [List.eraseDups_append, hnone, List.eraseDups_nil, List.append_nil]

/-- Repeats may be left out before a map as well as after it. -/
theorem eraseDups_map_eraseDups (f : α → β) (xs : List α) : (xs.eraseDups.map f).eraseDups = (xs.map f).eraseDups := by
  induction xs using List.reverseRecOn with
  | nil => rfl
  | append_singleton xs x ih =>
    have hmem : f x ∈ xs.eraseDups.map f ↔ f x ∈ xs.map f := by simp only [List.mem_map, List.mem_eraseDups]
    rw [eraseDups_concat, List.map_append, List.map_singleton, eraseDups_concat]
    split
    next hold => rw [ih, if_pos (List.mem_map_of_mem hold)]
    next => rw [List.map_append, List.map_singleton, eraseDups_concat, ih, if_congr hmem rfl rfl]

/-- Repeats may be left out of two parts before they are left out of the whole. -/
theorem eraseDups_append_eraseDups (xs ys : List α) :
    (xs.eraseDups ++ ys.eraseDups).eraseDups = (xs ++ ys).eraseDups := by
  induction ys using List.reverseRecOn with
  | nil =>
    have h := eraseDups_map_eraseDups id xs
    rw [List.map_id, List.map_id] at h
    rw [List.eraseDups_nil, List.append_nil, List.append_nil, h]
  | append_singleton ys y ih =>
    have hmem : y ∈ xs.eraseDups ++ ys.eraseDups ↔ y ∈ xs ++ ys := by simp only [List.mem_append, List.mem_eraseDups]
    rw [eraseDups_concat, ← List.append_assoc, eraseDups_concat]
    split
    next hold => rw [ih, if_pos (List.mem_append_right xs hold)]
    next => rw [← List.append_assoc, eraseDups_concat, ih, if_congr hmem rfl rfl]

/-- What is picked from a list without repeats has no repeats if it tells the elements apart. -/
theorem eraseDups_filterMap {f : α → Option β} (hf : ∀ {x y b}, f x = some b → f y = some b → x = y) (xs : List α) :
    (xs.filterMap f).eraseDups = xs.eraseDups.filterMap f := by
  induction xs using List.reverseRecOn with
  | nil => rfl
  | append_singleton xs x ih =>
    rw [List.filterMap_append, eraseDups_concat]
    cases hx : f x with
    | none => split <;> simp [hx, ih]
    | some b =>
      have hmem : b ∈ xs.filterMap f ↔ x ∈ xs := by
        rw [List.mem_filterMap]
        constructor
        · rintro ⟨y, hy, hb⟩
          exact hf hb hx ▸ hy
        · exact fun h => ⟨x, h, hx⟩
      simp only [List.filterMap_cons_some hx, List.filterMap_nil, eraseDups_concat, hmem, ih]
      split <;> simp [hx]

end LabelFilter
