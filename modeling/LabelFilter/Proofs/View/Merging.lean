import LabelFilter.Proofs.FirstOccurrences
import LabelFilter.Proofs.Matching

/-!
# Merged views

Merging keeps the first of equal expressions (`View.merge_eq`). For matching that makes no difference, and neither does
the order of expressions or of their values: views are satisfied alike if each expression of the one has its like in the
other (`View.Alike`). So a merged view, a combined view and the sources one by one are satisfied by the same labels
(`View.accepts_merge`).

Equality, by which merging drops expressions, is finer than being alike: `a in (1, 2)` and `a in (2, 1)` are both kept.
-/

namespace LabelFilter

/-! ## Expressions that ask the same -/

namespace Expression

/-- The expressions ask the same of the same label. Their values may stand in another order and more than once. -/
def Alike (e f : Expression) : Prop :=
  e.name = f.name ∧ e.operator = f.operator ∧ e.values ⊆ f.values ∧ f.values ⊆ e.values

instance (e f : Expression) : Decidable (e.Alike f) := inferInstanceAs (Decidable (_ ∧ _ ∧ _ ∧ _))

theorem Alike.refl (e : Expression) : e.Alike e :=
  ⟨rfl, rfl, List.Subset.refl e.values, List.Subset.refl e.values⟩

/-- Where a value with a property is found depends on which values there are. -/
theorem any_values_eq {values others : List String} (h : values ⊆ others) (h' : others ⊆ values) (p : String → Bool) :
    values.any p = others.any p :=
  any_eq_of_mem_iff (fun v => ⟨@h v, @h' v⟩) p

theorem isEmpty_values_eq {values others : List String} (h : values ⊆ others) (h' : others ⊆ values) :
    values.isEmpty = others.isEmpty := by
  rw [Bool.eq_iff_iff, List.isEmpty_iff, List.isEmpty_iff]
  constructor
  · rintro rfl
    exact List.subset_nil.mp h'
  · rintro rfl
    exact List.subset_nil.mp h

/-- What asks the same is satisfied alike. No values are like no others, so this holds for comparisons with none. -/
theorem Alike.accepts_eq {e f : Expression} (h : e.Alike f) (labels : LabelSet) :
    e.accepts labels = f.accepts labels := by
  obtain ⟨name, operator, values⟩ := e
  obtain ⟨_, _, others⟩ := f
  obtain ⟨rfl, rfl, hsub, hsup⟩ := h
  cases operator with
  | oneOf => simp only [accepts, isEmpty_values_eq hsub hsup, any_values_eq hsub hsup]
  | noneOf =>
    have hno := any_values_eq hsub hsup (labels.hasPair name)
    simp only [accepts, ← List.not_any_eq_all_not, hno]
  | present | absent => rfl

end Expression

namespace View

/-! ## What is merged -/

/-- Merging keeps each expression where it first comes up. -/
def keep (kept : List Expression) (e : Expression) : List Expression := if e ∈ kept then kept else kept ++ [e]

theorem foldl_keep (es fs : List Expression) : fs.foldl keep es.eraseDups = (es ++ fs).eraseDups :=
  foldl_eraseDups es fs

/-- The merged expressions are those of all sources, each where it first comes up. -/
theorem merge_eq (sources : List View) : (merge sources).expressions = (combine sources).expressions.eraseDups := by
  have hfold : (merge sources).expressions = sources.foldl (fun kept v => v.expressions.foldl keep kept) [] := by
    simp only [merge, fold_eq]
    rfl
  rw [hfold, expressions_combine, ← List.foldl_flatMap]
  exact foldl_keep [] _

theorem mem_merge {sources : List View} {e : Expression} :
    e ∈ (merge sources).expressions ↔ e ∈ (combine sources).expressions := by
  rw [merge_eq, List.mem_eraseDups]

/-! ## Views that ask the same -/

/-- Each expression of one view has its like in the other. -/
def Alike (v w : View) : Prop :=
  (∀ e ∈ v.expressions, ∃ f ∈ w.expressions, e.Alike f) ∧ ∀ f ∈ w.expressions, ∃ e ∈ v.expressions, f.Alike e

instance (v w : View) : Decidable (v.Alike w) := inferInstanceAs (Decidable (_ ∧ _))

theorem accepts_iff {labels : LabelSet} {v : View} : v.accepts labels ↔ ∀ e ∈ v.expressions, e.accepts labels := by
  rw [accepts, all_eq, List.all_eq_true]

/-- The labels that satisfy all expressions satisfy whatever is like one of them. -/
theorem accepts_of_alike {labels : LabelSet} {v w : View} (h : ∀ f ∈ w.expressions, ∃ e ∈ v.expressions, f.Alike e)
    (hv : v.accepts labels) : w.accepts labels := by
  rw [accepts_iff] at hv ⊢
  intro f hf
  obtain ⟨e, he, halike⟩ := h f hf
  rw [halike.accepts_eq]
  exact hv e he

theorem Alike.accepts_eq {v w : View} (h : v.Alike w) (labels : LabelSet) : v.accepts labels = w.accepts labels :=
  Bool.eq_iff_iff.mpr ⟨accepts_of_alike h.2, accepts_of_alike h.1⟩

theorem alike_of_mem_iff {v w : View} (h : ∀ e, e ∈ v.expressions ↔ e ∈ w.expressions) : v.Alike w :=
  ⟨fun e he => ⟨e, (h e).mp he, .refl e⟩, fun e he => ⟨e, (h e).mpr he, .refl e⟩⟩

theorem alike_merge (sources : List View) : (selector (merge sources)).Alike (combine sources) :=
  alike_of_mem_iff fun e => by rw [expressions_selector, mem_merge]

/-- A combined view is satisfied where each of its sources is. -/
theorem accepts_combine (labels : LabelSet) (sources : List View) :
    (combine sources).accepts labels = sources.all (accepts labels) := by
  rw [Bool.eq_iff_iff, accepts_iff, List.all_eq_true, expressions_combine]
  simp only [List.mem_flatMap, accepts_iff]
  exact ⟨fun h v hv e he => h e ⟨v, hv, he⟩, fun h e ⟨v, hv, he⟩ => h v hv e he⟩

/-- **Matching is a conjunction.** Whatever answers for the labels, they satisfy a merged view as they satisfy a combined
one, which is where they satisfy each source. And views of which each expression has its like in the other are satisfied
by the same labels, in whatever order and however often expressions and values come. -/
theorem accepts_merge (labels : LabelSet) (sources : List View) :
    (selector (merge sources)).accepts labels = (combine sources).accepts labels ∧
    (combine sources).accepts labels = sources.all (accepts labels) ∧
    ∀ v w : View, v.Alike w → v.accepts labels = w.accepts labels :=
  ⟨(alike_merge sources).accepts_eq labels, accepts_combine labels sources, fun _ _ h => h.accepts_eq labels⟩

/-- Two values, no values, and a name. -/
def plain : View := .list [⟨"a", .oneOf, ["1", "2"]⟩, ⟨"b", .noneOf, []⟩, .present "c"]

/-- The same, out of order and repeated. -/
def shuffled : View :=
  .combined [.list [.present "c", ⟨"a", .oneOf, ["2", "1", "2"]⟩], .list [], .list [⟨"b", .noneOf, []⟩, .present "c"]]

theorem accepts_merge_shuffled :
    plain.Alike shuffled ∧ (merge [plain, shuffled, plain]).expressions.length = 4 ∧
    plain.accepts (.ofPairs [("a", "2"), ("c", "")]) = true ∧
    shuffled.accepts (.ofPairs [("a", "2"), ("c", "")]) = true ∧
    shuffled.accepts (Delimited.labelSet ":" ["a:3", "c"]) = plain.accepts (Delimited.labelSet ":" ["a:3", "c"]) := by
  have halike : plain.Alike shuffled := by decide
  have hpairs := (accepts_merge (.ofPairs [("a", "2"), ("c", "")]) []).2.2 plain shuffled halike
  have hdelimited := (accepts_merge (Delimited.labelSet ":" ["a:3", "c"]) []).2.2 plain shuffled halike
  have hplain : plain.accepts (.ofPairs [("a", "2"), ("c", "")]) = true := by decide
  exact ⟨halike, by decide, hplain, hpairs.symm.trans hplain, hdelimited.symm⟩

end View

end LabelFilter
