import LabelFilter.Proofs.LabelSet.Delimited

/-!
# Delimited labels as their splits

Only a text without the separator is not cut (`Text.cut?_isSome_iff`). So a label is split at its first delimiter
(`split_eq_some_iff`), or has none of it (`split_eq_none_iff`).

The label set of delimited labels does not split them, and looks for a name at the front of a label, whatever the name
holds. For a name that the delimiter does not cut, its answers are read off the splits
(`LabelSet.delimited_iff_split`). Otherwise they may differ: `a:b:c` has the name `a:b` by its front, and by its split
it has the name `a`.
-/

namespace LabelFilter

/-! ## Texts that hold a separator -/

namespace Text

variable {separator text before after : List Char}

/-- The texts that are cut are those that hold the separator. -/
theorem cut?_isSome_iff : (cut? separator text).isSome ↔ ∃ before after, text = before ++ separator ++ after := by
  constructor
  · intro h
    obtain ⟨⟨before, after⟩, hcut⟩ := Option.isSome_iff_exists.mp h
    exact ⟨before, after, cut?_append hcut⟩
  · rintro ⟨before, after, rfl⟩
    induction before with
    | nil =>
      have hstart : separator.isPrefixOf? (separator ++ after) = some after :=
        List.isPrefixOf?_eq_some_iff_append_eq.mpr rfl
      rw [List.nil_append]
      cases htext : separator ++ after with
      | nil => rw [cut?, (List.append_eq_nil_iff.mp htext).1, List.isEmpty_nil, if_pos rfl, Option.isSome_some]
      | cons c cs => rw [cut?, ← htext, hstart, Option.isSome_some]
    | cons c before ih =>
      rw [List.cons_append, List.cons_append, cut?]
      split
      · rfl
      · rwa [Option.isSome_map]

end Text

namespace Delimited

open Text

variable {delimiter name label value : String}

/-! ## Splits -/

theorem eq_join_iff : label = join delimiter name value ↔
    label.toList = name.toList ++ delimiter.toList ++ value.toList := by
  rw [← String.toList_inj, toList_join, List.append_assoc]

/-- A label is split at the first delimiter. -/
theorem split_eq_some_iff : split delimiter label = (name, some value) ↔
    label = join delimiter name value ∧
      ∀ before after, label = join delimiter before after → name.length ≤ before.length := by
  have hcut : split delimiter label = (name, some value) ↔
      cut? delimiter.toList label.toList = some (name.toList, value.toList) := by
    unfold split
    split
    next n v h => simp [h, ← String.toList_inj]
    next h => simp [h]
  rw [hcut, cut?_eq_some_iff, ← eq_join_iff, String.length_toList]
  refine and_congr_right fun _ => ⟨fun h before after hlabel => ?_, fun h b a hlabel => ?_⟩
  · rw [← String.length_toList (s := before)]
    exact h _ _ (eq_join_iff.mp hlabel)
  · rw [← String.length_ofList (l := b)]
    exact h _ (String.ofList a) (eq_join_iff.mpr (by rwa [String.toList_ofList, String.toList_ofList]))

/-- A label without a value is its own name. -/
theorem eq_of_split_eq_none (h : split delimiter label = (name, none)) : label = name := by
  unfold split at h
  split at h
  next => cases congrArg Prod.snd h
  next => exact congrArg Prod.fst h

/-- The labels that are not split are those without the delimiter. -/
theorem split_eq_none_iff : split delimiter label = (label, none) ↔
    ∀ before after, label ≠ join delimiter before after := by
  constructor
  · intro h before after hlabel
    have hcut : (cut? delimiter.toList label.toList).isSome :=
      cut?_isSome_iff.mpr ⟨before.toList, after.toList, eq_join_iff.mp hlabel⟩
    unfold split at h
    split at h
    next => cases congrArg Prod.snd h
    next hnone =>
      rw [hnone] at hcut
      cases hcut
  · intro h
    unfold split
    split
    next b a hcut =>
      refine absurd (eq_join_iff.mpr ?_) (h (String.ofList b) (String.ofList a))
      rw [String.toList_ofList, String.toList_ofList, cut?_append hcut]
    next => rfl

/-- The delimiter occurs in the name and a delimiter behind it at the end only. -/
theorem isClean_iff : IsClean delimiter name ↔
    ∀ before after, name ++ delimiter = join delimiter before after → after = "" := by
  have hself : name ++ delimiter = join delimiter name "" := String.append_empty.symm
  rw [IsClean, split_eq_some_iff, and_iff_right hself]
  refine forall₂_congr fun before after => imp_congr_right fun hlabel => ?_
  -- an occurrence has as many characters behind it as it begins earlier
  have hlength := congrArg String.length hlabel
  simp only [join, String.length_append] at hlength
  rw [← String.length_eq_zero_iff]
  omega

/-! ## Answers -/

/-- A clean name is its own name as a label, even where the delimiter is empty. -/
theorem split_fst_of_isClean (h : IsClean delimiter name) : (split delimiter name).1 = name := by
  cases hsplit : split delimiter name with
  | mk start rest =>
    cases rest with
    | none => exact (eq_of_split_eq_none hsplit).symm
    | some value =>
      obtain ⟨hname, _⟩ := split_eq_some_iff.mp hsplit
      have hearlier : name ++ delimiter = join delimiter start (value ++ delimiter) := by
        rw [hname]
        simp only [join, String.append_assoc]
      obtain ⟨rfl, rfl⟩ := String.append_eq_empty_iff.mp (isClean_iff.mp h _ _ hearlier)
      rw [hname, join, String.append_empty, String.append_empty]

/-- The labels of a clean name are those that are split behind it, and the name itself. -/
theorem isNamed_iff_split (h : IsClean delimiter name) : isNamed delimiter name label ↔
    (split delimiter label).1 = name := by
  rw [isNamed_iff]
  constructor
  · rintro (rfl | ⟨value, rfl⟩)
    · exact split_fst_of_isClean h
    · rw [split_join h]
  · rintro rfl
    cases hsplit : split delimiter label with
    | mk start rest =>
      cases rest with
      | none => exact .inl (eq_of_split_eq_none hsplit)
      | some value => exact .inr ⟨value, (split_eq_some_iff.mp hsplit).1⟩

/-- The labels of a clean name with a value are those that are split into both. -/
theorem isPair_iff_split (h : IsClean delimiter name) : isPair delimiter name value label ↔
    split delimiter label = (name, some value) := by
  rw [isPair_iff]
  constructor
  · rintro rfl
    exact split_join h value
  · exact fun hsplit => (split_eq_some_iff.mp hsplit).1

/-- A label without the delimiter has no value of any name. -/
theorem isPair_of_ne_join (h : ∀ before after, label ≠ join delimiter before after) (name value : String) :
    isPair delimiter name value label = false :=
  Bool.eq_false_iff.mpr fun hpair => h name value (isPair_iff.mp hpair)

end Delimited

open Delimited

/-- **Delimited labels answer as their splits.** Let the delimiter occur in a name and a delimiter behind it at the end
only. The labels have the name if one of them is split behind it, and they have the name with a value if one of them is
split into both. A label without the delimiter is its own name, under which it is there, and no comparison with values
accepts it. -/
theorem LabelSet.delimited_iff_split (delimiter : String) (labels : List String) :
    (∀ name, (∀ before after, name ++ delimiter = join delimiter before after → after = "") →
      ((labelSet delimiter labels).hasName name ↔ ∃ label ∈ labels, (split delimiter label).1 = name) ∧
      ∀ value, (labelSet delimiter labels).hasPair name value ↔
        ∃ label ∈ labels, split delimiter label = (name, some value)) ∧
    ∀ label, (∀ before after, label ≠ join delimiter before after) →
      split delimiter label = (label, none) ∧
      (label ∈ labels → (Expression.present label).accepts (labelSet delimiter labels)) ∧
      ∀ name values, values ≠ [] →
        (Expression.mk name .oneOf values).accepts (labelSet delimiter [label]) = false := by
  constructor
  · intro name hname
    have hclean : IsClean delimiter name := isClean_iff.mpr hname
    constructor
    · rw [labelSet, List.any_eq_true]
      exact exists_congr fun label => and_congr_right fun _ => isNamed_iff_split hclean
    · intro value
      rw [labelSet, List.any_eq_true]
      exact exists_congr fun label => and_congr_right fun _ => isPair_iff_split hclean
  · intro label hlabel
    refine ⟨split_eq_none_iff.mpr hlabel, ?_, ?_⟩
    · intro hmem
      exact List.any_eq_true.mpr ⟨label, hmem, isNamed_iff.mpr (.inl rfl)⟩
    · intro name values hvalues
      have hnone : (labelSet delimiter [label]).hasPair name = fun _ => false := by
        funext value
        simp [labelSet, isPair_of_ne_join hlabel]
      have hempty : values.isEmpty = false := List.isEmpty_eq_false_iff.mpr hvalues
      simp [Expression.accepts, hnone, hempty]

/-- Labels of a name that ends in the beginning of the delimiter: with a value that holds the delimiter, and alone. -/
def cutLate : List String := ["a==>=>y", "flag=", "a="]

theorem LabelSet.delimited_iff_split_cutLate :
    (∀ before after, "a=" ++ "=>" = join "=>" before after → after = "") ∧
    ((labelSet "=>" cutLate).hasName "a=" ↔ ∃ label ∈ cutLate, (split "=>" label).1 = "a=") ∧
    ((labelSet "=>" cutLate).hasPair "a=" "=>y" ↔ ∃ label ∈ cutLate, split "=>" label = ("a=", some "=>y")) ∧
    (∀ before after, "flag=" ≠ join "=>" before after) ∧ split "=>" "flag=" = ("flag=", none) ∧ "flag=" ∈ cutLate ∧
    (Expression.present "flag=").accepts (labelSet "=>" cutLate) ∧ ["", ">"] ≠ [] ∧
    (Expression.mk "flag" .oneOf ["", ">"]).accepts (labelSet "=>" ["flag="]) = false := by
  have hname : ∀ before after, "a=" ++ "=>" = join "=>" before after → after = "" := isClean_iff.mp (by decide)
  have hflag : ∀ before after, "flag=" ≠ join "=>" before after := split_eq_none_iff.mp (by decide)
  have hmem : "flag=" ∈ cutLate := by decide
  have hvalues : ["", ">"] ≠ [] := List.cons_ne_nil _ _
  obtain ⟨hanswers, halone⟩ := LabelSet.delimited_iff_split "=>" cutLate
  obtain ⟨hnamed, hpair⟩ := hanswers "a=" hname
  obtain ⟨hsplit, hpresent, hvalued⟩ := halone "flag=" hflag
  exact ⟨hname, hnamed, hpair "=>y", hflag, hsplit, hmem, hpresent hmem, hvalues, hvalued "flag" ["", ">"] hvalues⟩

end LabelFilter
