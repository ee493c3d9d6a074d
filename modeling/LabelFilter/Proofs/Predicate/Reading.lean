import LabelFilter.Backend.Collection
import LabelFilter.Backend.Document
import LabelFilter.Proofs.Backend.Combining
import LabelFilter.Proofs.Backend.Decision
import LabelFilter.Proofs.Predicate.Grouped
import LabelFilter.Proofs.Predicate.Tests
import LabelFilter.Proofs.Sql.Grammar

/-!
# Written trees are read back

A tree with proper groups, whose tests are written as words, is written as a boolean expression of SQL that means this
tree and no other (`Predicate.readsBack_of_grouped`). So a group has its parentheses wherever it needs them, and trees are
written alike only if they are the same.

The text of any tree is that of an operand (`means_render`), which may stand in any group and behind any negation.
-/

namespace LabelFilter

open Sql

namespace Predicate

variable {α : Type} {form : α → String}

/-! ## What is written means the tree -/

/-- What stands between the members of a group. -/
def Connective.separator : Connective → String
  | conjunction => " AND "
  | disjunction => " OR "

theorem parts_separator (k : Connective) (s t : String) :
    parts (s ++ k.separator ++ t) = parts s ++ .word (keyword k) :: parts t := by
  have hbreaks : Breaks (k.separator ++ t).toList := by
    rw [String.toList_append]
    cases k <;> exact breaks_cons (c := ' ') rfl _
  rw [String.append_assoc, parts_append hbreaks, parts, parts, String.toList_append]
  cases k <;> rfl

/-- Members that are operands each may be written with the keyword between them. -/
theorem meansEach_render (k : Connective) {ps : List (Predicate α)} (hne : ps ≠ [])
    (h : ∀ p ∈ ps, Means .operand (parts (p.render form)) (p.map form)) :
    MeansEach k (parts (k.separator.intercalate (renderEach form ps))) (mapEach form ps) := by
  induction ps with
  | nil => exact absurd rfl hne
  | cons p ps ih =>
    obtain ⟨hp, hps⟩ := List.forall_mem_cons.mp h
    cases ps with
    | nil => simpa [renderEach, mapEach] using MeansEach.one (hp.member k)
    | cons q qs =>
      rw [renderEach, mapEach, renderEach, String.intercalate_cons_cons, parts_separator]
      exact .cons (hp.member k) (ih (List.cons_ne_nil q qs) hps)

/-- A group in its parentheses is an operand. -/
theorem means_group (k : Connective) {ps : List (Predicate α)} (size : 2 ≤ ps.length)
    (h : ∀ p ∈ ps, Means .operand (parts (p.render form)) (p.map form)) :
    Means .operand (parts ("(" ++ k.separator.intercalate (renderEach form ps) ++ ")")) (k.build (mapEach form ps)) := by
  have hne : ps ≠ [] := by
    rintro rfl
    cases size
  have hgroup : k.group (mapEach form ps) = k.build (mapEach form ps) :=
    Connective.group_eq_build (by simpa [mapEach_eq] using size)
  have hjoined := Means.joined (meansEach_render k hne h)
  rw [parts_closing, parts_opening, ← hgroup]
  exact .parentheses hjoined.expression

/-- A negation is an operand, with or without parentheses around what it negates. -/
theorem means_renderNot (p : Predicate α) {text : String} {r : Predicate String} (h : Means .operand (parts text) r) :
    Means .operand (parts (renderNot p text)) (not r) := by
  have hplain : Means .operand (parts ("NOT " ++ text)) (not r) := by
    rw [parts_not]
    exact .not h
  have hparentheses : Means .operand (parts ("NOT (" ++ text ++ ")")) (not r) := by
    have hopening : "NOT (" ++ text = "NOT " ++ ("(" ++ text) := by rw [← String.append_assoc]; rfl
    rw [parts_closing, hopening, parts_not, parts_opening]
    exact .not (.parentheses (Means.alone (k := .disjunction) (h.member .disjunction)))
  unfold renderNot
  -- Groups have parentheses of their own, and all else is given them.
  split
  · exact hplain
  · exact hplain
  · exact hparentheses

mutual

/-- What is written of a tree is an operand that means it. -/
theorem means_render : ∀ {p : Predicate α}, p.Grouped → (∀ t ∈ p.tests, IsAtom (form t)) →
    Means .operand (parts (p.render form)) (p.map form)
  | const true, _, _ => by
    have hword : parts "TRUE" = [.word "TRUE"] := by decide
    rw [render, map, hword]
    exact .word rfl
  | const false, _, _ => by
    have hword : parts "FALSE" = [.word "FALSE"] := by decide
    rw [render, map, hword]
    exact .word rfl
  | test t, _, hatoms => by
    have hatom : IsAtom (form t) := hatoms t (by simp)
    rw [render, map, hatom.parts_eq]
    exact .word hatom.meaning?_eq
  | not p, hgrouped, hatoms => by
    cases hgrouped with
    | not operand =>
      rw [tests_not] at hatoms
      rw [render, map]
      exact means_renderNot p (means_render operand hatoms)
  | and ps, hgrouped, hatoms => by
    cases hgrouped with
    | and size members =>
      rw [tests_and] at hatoms
      rw [render, map]
      exact means_group .conjunction size (means_renderEach members hatoms)
  | or ps, hgrouped, hatoms => by
    cases hgrouped with
    | or size members =>
      rw [tests_or] at hatoms
      rw [render, map]
      exact means_group .disjunction size (means_renderEach members hatoms)

theorem means_renderEach : ∀ {ps : List (Predicate α)}, (∀ p ∈ ps, p.Grouped) →
    (∀ t ∈ ps.flatMap tests, IsAtom (form t)) → ∀ p ∈ ps, Means .operand (parts (p.render form)) (p.map form)
  | [], _, _ => fun p hp => nomatch hp
  | p :: ps, hgrouped, hatoms => by
    simp only [List.flatMap_cons, List.mem_append] at hatoms
    obtain ⟨hp, hps⟩ := List.forall_mem_cons.mp hgrouped
    refine List.forall_mem_cons.mpr ⟨means_render hp ?_, means_renderEach hps ?_⟩
    · exact fun t ht => hatoms t (.inl ht)
    · exact fun t ht => hatoms t (.inr ht)

end

/-! ## The tests are known by their words -/

section Tests

variable {β : Type} {f : α → β} {P : α → Prop}

mutual

/-- Trees are the same if they are so with other things, by which the tests are known, in the places of the tests. -/
theorem map_injective (hf : ∀ {t u}, P t → P u → f t = f u → t = u) : ∀ {p q : Predicate α}, (∀ t ∈ p.tests, P t) →
    (∀ t ∈ q.tests, P t) → p.map f = q.map f → p = q
  | const b, q, _, _, h => (map_eq_const_iff.mp h.symm).symm
  | test t, q, hp, hq, h => by
    obtain ⟨u, rfl, hu⟩ := map_eq_test_iff.mp h.symm
    rw [hf (hp t (by simp)) (hq u (by simp)) hu.symm]
  | not p, q, hp, hq, h => by
    obtain ⟨q', rfl, hq'⟩ := map_eq_not_iff.mp h.symm
    rw [tests_not] at hp hq
    rw [map_injective hf hp hq hq'.symm]
  | and ps, q, hp, hq, h => by
    obtain ⟨qs, rfl, hqs⟩ := map_eq_and_iff.mp h.symm
    rw [tests_and] at hp hq
    rw [mapEach_injective hf hp hq hqs.symm]
  | or ps, q, hp, hq, h => by
    obtain ⟨qs, rfl, hqs⟩ := map_eq_or_iff.mp h.symm
    rw [tests_or] at hp hq
    rw [mapEach_injective hf hp hq hqs.symm]

theorem mapEach_injective (hf : ∀ {t u}, P t → P u → f t = f u → t = u) : ∀ {ps qs : List (Predicate α)},
    (∀ t ∈ ps.flatMap tests, P t) → (∀ t ∈ qs.flatMap tests, P t) → mapEach f ps = qs.map (map f) → ps = qs
  | [], _, _, _, h => (List.map_eq_nil_iff.mp h.symm).symm
  | p :: ps, _, hps, hqs, h => by
    obtain ⟨q, qs, rfl, hq, hrest⟩ := List.map_eq_cons_iff.mp h.symm
    simp only [List.flatMap_cons, List.mem_append] at hps hqs
    rw [map_injective hf (fun t ht => hps t (.inl ht)) (fun t ht => hqs t (.inl ht)) hq.symm,
      mapEach_injective hf (fun t ht => hps t (.inr ht)) (fun t ht => hqs t (.inr ht)) hrest.symm]

end

end Tests

/-! ## Reading back -/

/-- The tests with the property are written as words, by which they are known. -/
structure Legible (form : α → String) (P : α → Prop) : Prop where
  atom : ∀ {t}, P t → IsAtom (form t)
  injective : ∀ {t u}, P t → P u → form t = form u → t = u

/-- The tree is read back from its text, among all trees over tests with the property. -/
structure ReadsBack (form : α → String) (P : α → Prop) (p : Predicate α) : Prop where
  /-- The text means one tree: this one, with the word of each test in its place. -/
  reading : ∀ r, Reads (p.render form) r ↔ r = p.map form
  /-- As a tree over the tests, it means this one alone. -/
  tree : ∀ q, (∀ t ∈ q.tests, P t) → (Reads (p.render form) (q.map form) ↔ q = p)
  /-- No other tree has this text. -/
  text : ∀ q, q.Grouped → (∀ t ∈ q.tests, P t) → q.render form = p.render form → q = p

theorem reads_render_iff {p : Predicate α} (hgrouped : p.Grouped) (hatoms : ∀ t ∈ p.tests, IsAtom (form t))
    (r : Predicate String) : Reads (p.render form) r ↔ r = p.map form := by
  have hreads : Reads (p.render form) (p.map form) := (means_render hgrouped hatoms).member .disjunction |>.alone
  exact ⟨fun h => h.unique hreads, fun h => h ▸ hreads⟩

theorem Legible.readsBack {P : α → Prop} (h : Legible form P) {p : Predicate α} (hgrouped : p.Grouped)
    (htests : ∀ t ∈ p.tests, P t) : ReadsBack form P p := by
  have hreading : ∀ {q : Predicate α}, q.Grouped → (∀ t ∈ q.tests, P t) → ∀ r,
      Reads (q.render form) r ↔ r = q.map form :=
    fun hq hqtests => reads_render_iff hq fun t ht => h.atom (hqtests t ht)
  refine ⟨hreading hgrouped htests, fun q hqtests => ?_, fun q hq hqtests htext => ?_⟩
  · rw [hreading hgrouped htests]
    exact ⟨map_injective h.injective hqtests htests, congrArg (map form)⟩
  · have hsame : Reads (p.render form) (q.map form) := htext ▸ (hreading hq hqtests _).mpr rfl
    exact map_injective h.injective hqtests htests ((hreading hgrouped htests _).mp hsame)

end Predicate

/-! ## Compiled trees -/

namespace Backend

open Predicate

variable {Test Row : Type} {b : Backend Test Row}

/-- Compiling builds trees with the combinators, if batches are built so. -/
theorem built_predicate (hbatch : ∀ pairs, (b.containsAll pairs).Built) (v : View) : (b.predicate v).Built :=
  have hkeeps : b.Keeps Built := ⟨fun _ _ => .test _, fun _ => .test _, hbatch, .all, .any, .negate⟩
  hkeeps.predicate v

theorem built_eachPair (pairs : List (String × String)) : (b.eachPair pairs).Built :=
  .all (List.forall_mem_map.mpr fun _ _ => .test _)

theorem built_collection_ofPairs (delimiter : String) (pairs : List (String × String)) :
    (CollectionTest.ofPairs delimiter pairs).Built := by
  match pairs with
  | [] => exact .const true
  | [_] | _ :: _ :: _ => exact .test _

theorem built_document_ofPairs (pairs : List (String × String)) : (DocumentTest.ofPairs pairs).Built := by
  unfold DocumentTest.ofPairs
  split
  · exact .all (List.forall_mem_map.mpr fun _ _ => .test _)
  · split
    · exact .const true
    · exact .test _

end Backend

namespace Predicate

/-- **What is written is read back.** If tests are written as words by which they are known, a tree with proper groups is
read back from its text, and no other tree has that text. The combinators build no other trees, and neither does
compiling. -/
theorem readsBack_of_grouped :
    (∀ {α : Type} {form : α → String} {P : α → Prop}, Legible form P → ∀ p : Predicate α, p.Grouped →
      (∀ t ∈ p.tests, P t) → ReadsBack form P p) ∧
    (∀ {α : Type} (p : Predicate α), p.Built → p.Grouped) ∧
    (∀ delimiter v, ((Backend.collection delimiter).predicate v).Built) ∧
    (∀ dialect v, ((Backend.document dialect).predicate v).Built) ∧
    ∀ {Test Row : Type} (b : Backend Test Row), b.containsAll = b.eachPair → ∀ v, (b.predicate v).Built := by
  refine ⟨fun h p => h.readsBack, fun p => Built.grouped, fun delimiter => ?_, fun dialect => ?_, fun b hbatch => ?_⟩
  · exact Backend.built_predicate (Backend.built_collection_ofPairs delimiter)
  · exact Backend.built_predicate Backend.built_document_ofPairs
  · exact Backend.built_predicate fun pairs => hbatch ▸ Backend.built_eachPair pairs

/-- Every kind of tree below every other: a conjunction of a negated disjunction, a constant and a conjunction. -/
def crossed : Predicate Char :=
  and [not (or [test 'a', not (not (test 'b'))]), const true, and [test 'b', not (test 'a')]]

theorem readsBack_crossed :
    Legible String.singleton (· ∈ ['a', 'b']) ∧ crossed.Grouped ∧ (∀ t ∈ crossed.tests, t ∈ ['a', 'b']) ∧
    crossed.render String.singleton = "(NOT (a OR NOT (NOT (b))) AND TRUE AND (b AND NOT (a)))" ∧
    ∀ q : Predicate Char, (∀ t ∈ q.tests, t ∈ ['a', 'b']) →
      (Reads "(NOT (a OR NOT (NOT (b))) AND TRUE AND (b AND NOT (a)))" (q.map String.singleton) ↔ q = crossed) := by
  have hatoms : ∀ t ∈ ['a', 'b'], IsAtom (String.singleton t) :=
    List.forall_mem_cons.mpr ⟨by decide, List.forall_mem_singleton.mpr (by decide)⟩
  have hknown : ∀ t u, String.singleton t = String.singleton u → t = u :=
    fun t u h => by simpa using congrArg String.toList h
  have hlegible : Legible String.singleton (· ∈ ['a', 'b']) := ⟨hatoms _, fun _ _ => hknown _ _⟩
  have hor : Grouped (or [test 'a', not (not (test 'b'))]) := .or (by simp) (by simp [Grouped.test, Grouped.not])
  have hand : Grouped (and [test 'b', not (test 'a')]) := .and (by simp) (by simp [Grouped.test, Grouped.not])
  have hgrouped : crossed.Grouped := .and (by simp) (by simp [Grouped.const, hor.not, hand])
  have htests : ∀ t ∈ crossed.tests, t ∈ ['a', 'b'] := by
    have hlist : crossed.tests = ['a', 'b', 'b', 'a'] := by decide
    simp [hlist]
  have htext : crossed.render String.singleton = "(NOT (a OR NOT (NOT (b))) AND TRUE AND (b AND NOT (a)))" := by decide
  exact ⟨hlegible, hgrouped, htests, htext, htext ▸ (readsBack_of_grouped.1 hlegible crossed hgrouped htests).tree⟩

end Predicate

end LabelFilter
