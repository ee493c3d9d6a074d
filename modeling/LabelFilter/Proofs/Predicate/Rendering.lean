import LabelFilter.Proofs.Predicate.Tests
import LabelFilter.Proofs.Sql.Reading

/-!
# Predicates of one shape are written alike

If tests of one kind are written alike, so are predicates of one shape: the same code, and in its literals the texts of
the tests in order (`Predicate.alike_render`). The shape is all that the code depends on.
-/

namespace LabelFilter.Predicate

open Sql

variable {α κ : Type}

/-- The negations of texts that are alike are alike. -/
theorem alike_renderNot {q : Quoting} {s t : String} {texts others : List String} (p : Predicate α)
    (h : Alike q s t texts others) : Alike q (renderNot p s) (renderNot p t) texts others := by
  have hplain : Alike q ("NOT " ++ s) ("NOT " ++ t) texts others := .code _ (by decide) h
  have hparens : Alike q ("NOT (" ++ s ++ ")") ("NOT (" ++ t ++ ")") texts others :=
    (Alike.code _ (by decide) h).append_code (by decide)
  unfold renderNot
  split
  next => exact hplain
  next => exact hplain
  next => exact hparens

/-- Groups of members that are alike are alike. -/
theorem alike_group {q : Quoting} {sep : String} {ss ts texts others : List String} (hsep : Unquoted sep)
    (hne : sep ≠ "") (h : AlikeEach q ss ts texts others) :
    Alike q ("(" ++ sep.intercalate ss ++ ")") ("(" ++ sep.intercalate ts ++ ")") texts others := by
  have hmembers : Alike q (sep.intercalate ss) (sep.intercalate ts) texts others := h.intercalate hsep hne
  exact (Alike.code _ (by decide) hmembers).append_code (by decide)

variable {q : Quoting} {kind : α → κ} {form : α → String} {texts : α → List String}

mutual

/-- Predicates of one shape are written alike if their tests are. -/
theorem alike_render : ∀ (shape : Predicate κ) {p p' : Predicate α}, p.map kind = shape → p'.map kind = shape →
    (∀ t ∈ p.tests, ∀ t' ∈ p'.tests, kind t = kind t' → Alike q (form t) (form t') (texts t) (texts t')) →
    Alike q (p.render form) (p'.render form) (p.tests.flatMap texts) (p'.tests.flatMap texts)
  | const b, p, p', hp, hp', _ => by
    obtain rfl := map_eq_const_iff.mp hp
    obtain rfl := map_eq_const_iff.mp hp'
    cases b <;> simp only [render, tests_const] <;> exact .ofCode (by decide)
  | test k, p, p', hp, hp', htests => by
    obtain ⟨t, rfl, hk⟩ := map_eq_test_iff.mp hp
    obtain ⟨t', rfl, hk'⟩ := map_eq_test_iff.mp hp'
    simpa [render] using htests t (by simp) t' (by simp) (hk.trans hk'.symm)
  | not shape, p, p', hp, hp', htests => by
    obtain ⟨r, rfl, hr⟩ := map_eq_not_iff.mp hp
    obtain ⟨r', rfl, hr'⟩ := map_eq_not_iff.mp hp'
    rw [tests_not, tests_not] at htests ⊢
    rw [render, render, ← renderNot_map (f := kind) r, ← renderNot_map (f := kind) r', hr, hr']
    exact alike_renderNot shape (alike_render shape hr hr' htests)
  | and shapes, p, p', hp, hp', htests => by
    obtain ⟨ps, rfl, hps⟩ := map_eq_and_iff.mp hp
    obtain ⟨ps', rfl, hps'⟩ := map_eq_and_iff.mp hp'
    rw [tests_and, tests_and] at htests ⊢
    rw [render, render]
    exact alike_group (by decide) (by decide) (alikeEach_render shapes hps hps' htests)
  | or shapes, p, p', hp, hp', htests => by
    obtain ⟨ps, rfl, hps⟩ := map_eq_or_iff.mp hp
    obtain ⟨ps', rfl, hps'⟩ := map_eq_or_iff.mp hp'
    rw [tests_or, tests_or] at htests ⊢
    rw [render, render]
    exact alike_group (by decide) (by decide) (alikeEach_render shapes hps hps' htests)

theorem alikeEach_render : ∀ (shapes : List (Predicate κ)) {ps ps' : List (Predicate α)},
    ps.map (map kind) = shapes → ps'.map (map kind) = shapes →
    (∀ t ∈ ps.flatMap tests, ∀ t' ∈ ps'.flatMap tests, kind t = kind t' →
      Alike q (form t) (form t') (texts t) (texts t')) →
    AlikeEach q (renderEach form ps) (renderEach form ps') ((ps.flatMap tests).flatMap texts)
      ((ps'.flatMap tests).flatMap texts)
  | [], ps, ps', hps, hps', _ => by
    obtain rfl := List.map_eq_nil_iff.mp hps
    obtain rfl := List.map_eq_nil_iff.mp hps'
    exact .nil
  | shape :: shapes, ps, ps', hps, hps', htests => by
    obtain ⟨p, ps, rfl, hp, hps⟩ := List.map_eq_cons_iff.mp hps
    obtain ⟨p', ps', rfl, hp', hps'⟩ := List.map_eq_cons_iff.mp hps'
    simp only [List.flatMap_cons, List.flatMap_append, List.mem_append] at htests ⊢
    rw [renderEach, renderEach]
    refine .cons (alike_render shape hp hp' ?_) (alikeEach_render shapes hps hps' ?_)
    · exact fun t ht t' ht' => htests t (.inl ht) t' (.inl ht')
    · exact fun t ht t' ht' => htests t (.inr ht) t' (.inr ht')

end

end LabelFilter.Predicate
