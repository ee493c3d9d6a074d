import LabelFilter.Proofs.View.Merging

/-!
# The labels of a view

The expressions of a view fall into groups, one for each label that they are about: `View.labels` names the labels and
`View.forLabel` gives the group of one. Put together, the groups are the expressions in another order, so a view is
satisfied where each of its groups is (`View.SortedByLabel`).

Merging leaves out repeats, and so it does in every group and in the exact matches (`View.sortedByLabel_and_merge`), for an
expression is known from what is picked of it there.
-/

namespace LabelFilter

/-! ## Groups by a key -/

section Groups

variable {α κ : Type} [DecidableEq κ] {key : α → κ}

/-- Lists with the same elements of each key, in the same order, are permutations of one another. -/
theorem perm_of_filter_eq [DecidableEq α] {xs ys : List α}
    (h : ∀ k, xs.filter (fun x => key x = k) = ys.filter (fun y => key y = k)) : xs.Perm ys := by
  rw [List.perm_iff_count]
  intro x
  have hcount : ∀ zs : List α, (zs.filter fun z => key z = key x).count x = zs.count x :=
    fun zs => List.count_filter (by simp)
  rw [← hcount xs, ← hcount ys, h]

/-- The group of a key has nothing of any other key. -/
theorem filter_filter_key (xs : List α) (j k : κ) :
    (xs.filter fun x => key x = j).filter (fun x => key x = k) = if j = k then xs.filter fun x => key x = k else [] := by
  rw [List.filter_filter]
  split
  next hjk =>
    subst hjk
    simp only [Bool.and_self]
  next hjk =>
    rw [List.filter_eq_nil_iff]
    intro x _ hx
    simp only [Bool.and_eq_true, decide_eq_true_eq] at hx
    exact hjk (hx.2.symm.trans hx.1)

/-- One key of several has the elements of its group. -/
theorem flatMap_ite_key {keys : List κ} (hkeys : keys.Nodup) (k : κ) (ys : List α) :
    (keys.flatMap fun j => if j = k then ys else []) = if k ∈ keys then ys else [] := by
  induction keys with
  | nil => rfl
  | cons j keys ih =>
    obtain ⟨hj, hkeys⟩ := List.nodup_cons.mp hkeys
    rw [List.flatMap_cons, ih hkeys]
    by_cases hjk : j = k
    · subst hjk
      simp [hj]
    · simp [hjk, Ne.symm hjk]

/-- Groups of different keys, one after the other, have the elements of each key in their order. -/
theorem filter_groups {keys : List κ} (hkeys : keys.Nodup) {xs : List α} (hall : ∀ x ∈ xs, key x ∈ keys) (k : κ) :
    (keys.flatMap fun j => xs.filter fun x => key x = j).filter (fun x => key x = k) = xs.filter fun x => key x = k := by
  simp only [List.filter_flatMap, filter_filter_key, flatMap_ite_key hkeys]
  split
  next => rfl
  next hk =>
    rw [eq_comm, List.filter_eq_nil_iff]
    intro x hx hkey
    exact hk (of_decide_eq_true hkey ▸ hall x hx)

end Groups

/-! ## Labels -/

namespace Expression

/-- An expression that asks for one value is known from its name and the value. -/
theorem eq_exact_of_exactValue? {e : Expression} {value : String} (h : e.exactValue? = some value) :
    e = exact e.name value := by
  obtain ⟨name, operator, values⟩ := e
  unfold exactValue? at h
  split at h
  · cases h
    simp_all [exact]
  · cases h

end Expression

namespace View

theorem labels_eq (v : View) : v.labels = (v.expressions.map Expression.name).eraseDups := by
  rw [labels, fold_eq, ← List.nil_append (v.expressions.map Expression.name), ← foldl_eraseDups, List.foldl_map]
  rfl

theorem mem_labels {v : View} {name : String} : name ∈ v.labels ↔ ∃ e ∈ v.expressions, e.name = name := by
  rw [labels_eq, List.mem_eraseDups, List.mem_map]

theorem mem_forLabel {v : View} {name : String} {e : Expression} :
    e ∈ v.forLabel name ↔ e ∈ v.expressions ∧ e.name = name := by
  rw [forLabel_eq, List.mem_filter, decide_eq_true_eq]

/-- The groups of a view, one after the other. -/
def groups (v : View) : List Expression := v.labels.flatMap fun name => v.forLabel name

theorem groups_filter (v : View) (name : String) :
    v.groups.filter (fun e => e.name = name) = v.expressions.filter fun e => e.name = name := by
  have hlabels : v.labels.Nodup := by
    rw [labels_eq]
    exact nodup_eraseDups _
  have hall : ∀ e ∈ v.expressions, e.name ∈ v.labels := fun e he => mem_labels.mpr ⟨e, he, rfl⟩
  simp only [groups, forLabel_eq, filter_groups hlabels hall]

theorem groups_perm (v : View) : v.groups.Perm v.expressions :=
  perm_of_filter_eq v.groups_filter

/-- The expressions of a view are sorted into groups, one for each label. -/
structure SortedByLabel (v : View) : Prop where
  /-- The labels are the names of the expressions, each where it first comes up. -/
  labels : FirstOccurrences (v.expressions.map Expression.name) v.labels
  forLabel_eq_nil : ∀ name, v.forLabel name = [] ↔ name ∉ v.labels
  /-- The groups have the expressions of the view, each as often as the view has it. -/
  perm : v.groups.Perm v.expressions
  /-- Expressions about the same label stay in order. -/
  order : ∀ name, v.groups.filter (fun e => e.name = name) = v.expressions.filter fun e => e.name = name
  /-- The view is satisfied where the selector of each group is. -/
  accepts : ∀ labels, v.accepts labels = v.labels.all fun name =>
    (selector (.ofExpressions (v.forLabel name))).accepts labels

theorem forLabel_eq_nil_iff {v : View} {name : String} : v.forLabel name = [] ↔ name ∉ v.labels := by
  simp only [List.eq_nil_iff_forall_not_mem, mem_forLabel, mem_labels, not_exists, not_and]

/-- Each expression is in the group of its name. -/
theorem accepts_eq_all_groups (v : View) (labels : LabelSet) :
    v.accepts labels = v.labels.all fun name => (selector (.ofExpressions (v.forLabel name))).accepts labels := by
  rw [Bool.eq_iff_iff, List.all_eq_true]
  simp only [accepts_iff, expressions_selector, Selector.ofExpressions, mem_forLabel]
  constructor
  · exact fun h name _ e he => h e he.1
  · exact fun h e he => h e.name (mem_labels.mpr ⟨e, he, rfl⟩) e ⟨he, rfl⟩

theorem sortedByLabel (v : View) : v.SortedByLabel where
  labels := by
    rw [labels_eq]
    exact firstOccurrences_eraseDups _
  forLabel_eq_nil _ := forLabel_eq_nil_iff
  perm := v.groups_perm
  order := v.groups_filter
  accepts := v.accepts_eq_all_groups

/-! ## Merged views -/

/-- What is gathered of merged expressions is gathered once, if it tells them apart. -/
theorem gather_merge {α : Type} [BEq α] [LawfulBEq α] {f : Expression → Option α}
    (hf : ∀ {e e' a}, f e = some a → f e' = some a → e = e') (sources : List View) :
    (selector (merge sources)).gather f = ((combine sources).gather f).eraseDups := by
  rw [gather_eq, gather_eq, expressions_selector, merge_eq, eraseDups_filterMap hf]

theorem labels_merge (sources : List View) : (selector (merge sources)).labels = (combine sources).labels := by
  rw [labels_eq, labels_eq, expressions_selector, merge_eq, eraseDups_map_eraseDups]

theorem forLabel_merge (sources : List View) (name : String) :
    (selector (merge sources)).forLabel name = ((combine sources).forLabel name).eraseDups := by
  refine gather_merge (fun {e e' a} he he' => ?_) sources
  obtain ⟨-, rfl⟩ : e.name = name ∧ e = a := by simpa using he
  obtain ⟨-, rfl⟩ : e'.name = name ∧ e' = e := by simpa using he'
  rfl

theorem exactMatches_merge (sources : List View) :
    (selector (merge sources)).exactMatches = (combine sources).exactMatches.eraseDups := by
  refine gather_merge (fun {e e' p} he he' => ?_) sources
  obtain ⟨value, hvalue, rfl⟩ := Option.map_eq_some_iff.mp he
  obtain ⟨value', hvalue', hpair⟩ := Option.map_eq_some_iff.mp he'
  obtain ⟨hname, rfl⟩ := Prod.mk.inj hpair
  rw [Expression.eq_exact_of_exactValue? hvalue, Expression.eq_exact_of_exactValue? hvalue', hname]

/-- **Views are sorted by label.** The labels of a view are its names, each once and in order, and its expressions fall
into the groups of these, which keep their order and are satisfied together where the view is. Merged sources have the
labels of the combined ones, and of their groups and exact matches the first occurrences. -/
theorem sortedByLabel_and_merge :
    (∀ v : View, v.SortedByLabel) ∧
    ∀ sources, (selector (merge sources)).labels = (combine sources).labels ∧
      (∀ name, (selector (merge sources)).forLabel name = ((combine sources).forLabel name).eraseDups) ∧
      (selector (merge sources)).exactMatches = (combine sources).exactMatches.eraseDups :=
  ⟨sortedByLabel, fun sources => ⟨labels_merge sources, forLabel_merge sources, exactMatches_merge sources⟩⟩

end View

end LabelFilter
