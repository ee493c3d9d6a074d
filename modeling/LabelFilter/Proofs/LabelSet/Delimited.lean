import LabelFilter.LabelSet.Delimited
import LabelFilter.Proofs.Matching
import Mathlib.Data.List.Basic

/-!
# Delimited labels as pairs

A label has a name and a value exactly if it is the string that joins them (`isPair_iff`), and it has a name if it is
the name or joins the name to some value (`isNamed_iff`). So one string can be a label in more ways than one: the name
may hold the delimiter, or end in its beginning.

A text is cut at the first occurrence of a separator: no other one begins earlier (`Text.cut?_eq_some_iff`). A name is
clean if the first delimiter behind it is the one that follows it (`IsClean`). The labels of clean names are cut where
they were joined (`split_join`), and for clean names they answer as the pairs they were made of
(`acceptsDelimited_join`).
-/

namespace LabelFilter

/-! ## First occurrences -/

namespace Text

variable {separator text before after : List Char}

theorem ne_append_of_isPrefixOf?_eq_none {start : List Char} (h : start.isPrefixOf? text = none) (rest : List Char) :
    text ≠ start ++ rest := by
  intro htext
  rw [List.isPrefixOf?_eq_some_iff_append_eq.mpr htext.symm] at h
  cases h

theorem dropPrefix?_eq_isPrefixOf? (start text : List Char) : text.dropPrefix? start = start.isPrefixOf? text := by
  apply Option.ext
  intro rest
  rw [List.dropPrefix?_eq_some_iff, List.isPrefixOf?_eq_some_iff_append_eq]
  simp only [beq_iff_eq, exists_eq_right]
  exact eq_comm

/-- The search for an infix collects what it has passed, and cutting puts it back in front. -/
theorem dropInfix?_go_eq (separator text passed : List Char) :
    List.dropInfix?.go separator text passed = (cut? separator text).map fun p => (passed.reverse ++ p.1, p.2) := by
  induction text generalizing passed with
  | nil =>
    rw [List.dropInfix?.go, cut?]
    split <;> simp
  | cons c cs ih =>
    rw [List.dropInfix?.go, cut?, dropPrefix?_eq_isPrefixOf?]
    cases separator.isPrefixOf? (c :: cs) with
    | some rest => simp
    | none => simp [ih, Function.comp_def]

theorem cut?_eq_dropInfix? (separator text : List Char) : cut? separator text = text.dropInfix? separator := by
  rw [List.dropInfix?, dropInfix?_go_eq]
  simp

/-- **A text is cut at the first occurrence of the separator.** -/
theorem cut?_eq_some_iff : cut? separator text = some (before, after) ↔
    text = before ++ separator ++ after ∧ ∀ b a, text = b ++ separator ++ a → before.length ≤ b.length := by
  rw [cut?_eq_dropInfix?, List.dropInfix?_eq_some_iff]
  simp only [beq_iff_eq, exists_eq_right]
  refine and_congr_right fun _ => ⟨fun h b a hb => h b separator a hb rfl, ?_⟩
  rintro h b _ a hb rfl
  exact h b a hb

/-- A text that can be cut is what stands before the separator, the separator, and what stands after it. -/
theorem cut?_append (h : cut? separator text = some (before, after)) : text = before ++ separator ++ after :=
  (cut?_eq_some_iff.mp h).1

/-- The first occurrence of a separator stays the first when more text follows. -/
theorem cut?_append_right (h : cut? separator text = some (before, after)) (more : List Char) :
    cut? separator (text ++ more) = some (before, after ++ more) := by
  obtain ⟨htext, hfirst⟩ := cut?_eq_some_iff.mp h
  rw [cut?_eq_some_iff]
  refine ⟨by rw [htext, List.append_assoc], fun b a hmore => ?_⟩
  by_contra hlt
  -- an earlier occurrence would end earlier too, and so before the text does
  have hlength : (b ++ separator).length ≤ text.length := by
    rw [htext]
    simp only [List.length_append]
    omega
  obtain ⟨a', hearlier⟩ := List.prefix_of_prefix_length_le ⟨a, hmore.symm⟩ (List.prefix_append text more) hlength
  exact hlt (hfirst b a' hearlier.symm)

end Text

namespace Delimited

open Text

variable {delimiter name other label value : String}

/-! ## Labels that are joined -/

theorem toList_join (delimiter name value : String) :
    (join delimiter name value).toList = name.toList ++ (delimiter.toList ++ value.toList) := by
  simp [join]

/-- A label is a pair exactly if it joins the name and the value. -/
theorem isPair_iff : isPair delimiter name value label ↔ label = join delimiter name value := by
  rw [← String.toList_inj, toList_join]
  unfold isPair
  split
  next rest hrest =>
    rw [beq_iff_eq, List.isPrefixOf?_eq_some_iff_append_eq, ← List.append_eq_of_isPrefixOf?_eq_some hrest,
      List.append_right_inj, eq_comm]
  next hnone => exact iff_of_false Bool.false_ne_true (ne_append_of_isPrefixOf?_eq_none hnone _)

/-- A label has a name exactly if it is the name, or joins it to some value. -/
theorem isNamed_iff : isNamed delimiter name label ↔ label = name ∨ ∃ value, label = join delimiter name value := by
  unfold isNamed
  rw [Bool.or_eq_true, beq_iff_eq]
  apply or_congr_right
  have hlist : ∀ text, label = text ↔ label.toList = text.toList := fun _ => String.toList_inj.symm
  simp only [hlist, toList_join]
  split
  next rest hrest =>
    rw [List.isPrefixOf_iff_prefix, ← List.append_eq_of_isPrefixOf?_eq_some hrest]
    simp only [List.append_right_inj]
    constructor
    · rintro ⟨text, rfl⟩
      exact ⟨String.ofList text, by rw [String.toList_ofList]⟩
    · rintro ⟨value, rfl⟩
      exact List.prefix_append _ _
  next hnone =>
    refine iff_of_false Bool.false_ne_true ?_
    rintro ⟨value, hlabel⟩
    exact ne_append_of_isPrefixOf?_eq_none hnone _ hlabel

/-! ## Clean names -/

/-- The first delimiter in the name and a delimiter behind it is the one behind it. -/
def IsClean (delimiter name : String) : Prop := split delimiter (name ++ delimiter) = (name, some "")

instance (delimiter name : String) : Decidable (IsClean delimiter name) :=
  inferInstanceAs (Decidable (_ = _))

/-- The label of a clean name is cut where it was joined. -/
theorem split_join (h : IsClean delimiter name) (value : String) :
    split delimiter (join delimiter name value) = (name, some value) := by
  unfold IsClean split at h
  split at h
  next before after hcut =>
    simp only [Prod.mk.injEq, Option.some.injEq] at h
    obtain ⟨rfl, hafter⟩ := h
    have hnil : after = [] := by simpa using congrArg String.toList hafter
    have hjoin := cut?_append_right hcut value.toList
    rw [String.toList_append, List.append_assoc, ← toList_join, hnil] at hjoin
    rw [split, hjoin]
    simp
  next => cases congrArg Prod.snd h

/-- The labels of clean names have their own name only. -/
theorem isNamed_join (hname : IsClean delimiter name) (hother : IsClean delimiter other) (value : String) :
    isNamed delimiter name (join delimiter other value) = (other == name) := by
  rw [Bool.eq_iff_iff, isNamed_iff, beq_iff_eq]
  constructor
  · rintro (hlabel | ⟨v, hlabel⟩)
    · -- such a name holds a delimiter, which comes before the one behind it
      have hjoin : name ++ delimiter = join delimiter other (value ++ delimiter) := by
        rw [← hlabel]
        simp only [join, String.append_assoc]
      have hsplit := split_join hother (value ++ delimiter)
      rw [← hjoin, hname] at hsplit
      exact (congrArg Prod.fst hsplit).symm
    · have hsplit := split_join hother value
      rw [hlabel, split_join hname] at hsplit
      exact (congrArg Prod.fst hsplit).symm
  · rintro rfl
    exact .inr ⟨value, rfl⟩

/-- The labels of clean names have their own name and value only. -/
theorem isPair_join (hname : IsClean delimiter name) (hother : IsClean delimiter other) (value v : String) :
    isPair delimiter name v (join delimiter other value) = (other == name && value == v) := by
  rw [Bool.eq_iff_iff, isPair_iff, Bool.and_eq_true, beq_iff_eq, beq_iff_eq]
  constructor
  · intro hlabel
    have hsplit := split_join hother value
    rw [hlabel, split_join hname] at hsplit
    simp only [Prod.mk.injEq, Option.some.injEq] at hsplit
    exact ⟨hsplit.1.symm, hsplit.2.symm⟩
  · rintro ⟨rfl, rfl⟩
    rfl

/-- What is asked of joined labels can be asked of the pairs. -/
theorem any_join {pairs : List (String × String)} {asked : String → Bool} {answer : String × String → Bool}
    (h : ∀ p ∈ pairs, asked (join delimiter p.1 p.2) = answer p) :
    (pairs.map fun p => join delimiter p.1 p.2).any asked = pairs.any answer := by
  rw [List.any_map, Bool.eq_iff_iff, List.any_eq_true, List.any_eq_true]
  refine exists_congr fun p => and_congr_right fun hp => ?_
  rw [Function.comp_apply, h p hp]

end Delimited

/-! ## Matching -/

open Delimited

/-- **Joined labels answer as their pairs** to every view of clean names, if their own names are clean. Values may hold
the delimiter, and names may come up more than once. -/
theorem View.acceptsDelimited_join {delimiter : String} {pairs : List (String × String)} {v : View}
    (hpairs : ∀ p ∈ pairs, IsClean delimiter p.1) (hview : ∀ e ∈ v.expressions, IsClean delimiter e.name) :
    v.acceptsDelimited delimiter (pairs.map fun p => join delimiter p.1 p.2) = v.accepts (LabelSet.ofPairs pairs) := by
  apply View.accepts_congr
  intro e he
  constructor
  · exact any_join fun p hp => isNamed_join (hview e he) (hpairs p hp) p.2
  · exact fun value => any_join fun p hp => isPair_join (hview e he) (hpairs p hp) p.2 value

/-- Labels of the clean names `a=` and `>`, of which the first ends in the beginning of the delimiter. -/
def overlapping : List (String × String) := [("a=", "x"), ("a=", "=>y"), (">", "")]

/-- A view of clean names that asks for a value with a delimiter in it. -/
def overlappingView : View := .list [⟨"a=", .oneOf, ["z", "=>y"]⟩, .notExact ">" "x", .absent "a"]

theorem View.acceptsDelimited_join_overlapping :
    (∀ p ∈ overlapping, IsClean "=>" p.1) ∧ (∀ e ∈ overlappingView.expressions, IsClean "=>" e.name) ∧
    overlappingView.acceptsDelimited "=>" ["a==>x", "a==>=>y", ">=>"] =
      overlappingView.accepts (LabelSet.ofPairs overlapping) := by
  have hpairs : ∀ p ∈ overlapping, IsClean "=>" p.1 := by decide
  have hview : ∀ e ∈ overlappingView.expressions, IsClean "=>" e.name := by decide
  exact ⟨hpairs, hview, View.acceptsDelimited_join hpairs hview⟩

end LabelFilter
