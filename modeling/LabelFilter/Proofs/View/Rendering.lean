import LabelFilter.View.Expressions

/-!
# Two ways to write a view

`View.render` sets an expression off by a comma from the text before it if there is any, and `Selector.text` from the
expression before it. They differ on expressions that are written as nothing, which are those that ask whether the empty
name is there (`Expression.text_eq_empty_iff`): `render` leaves the commas out after such expressions at the front
(`View.render_eq`, `Selector.text_eq_join`). Everywhere else the two come to the same (`View.render_eq_text_iff`).
-/

namespace LabelFilter

namespace Expression

/-- The expression is written as nothing. -/
def isUnwritten (e : Expression) : Bool := e.text.isEmpty

theorem text_eq_empty_iff {e : Expression} : e.text = "" ↔ e.operator = .present ∧ e.name = "" := by
  obtain ⟨name, operator, values⟩ := e
  cases operator with
  | present => simp [text]
  | absent => simp [text]
  | oneOf | noneOf => rcases values with _ | ⟨v, _ | ⟨w, vs⟩⟩ <;> simp [text]

theorem isUnwritten_iff {e : Expression} : e.isUnwritten ↔ e.operator = .present ∧ e.name = "" := by
  rw [isUnwritten, String.isEmpty_iff, text_eq_empty_iff]

end Expression

namespace View

/-- What `render` does with an expression. -/
def renderAfter (out : String) (e : Expression) : String :=
  if out.isEmpty then out ++ e.text else out ++ ", " ++ e.text

/-- After some text, an expression is set off as it is from an expression. -/
theorem foldl_renderAfter_of_ne_empty {out : String} (h : out ≠ "") (es : List Expression) :
    es.foldl renderAfter out = ", ".intercalate (out :: es.map Expression.text) := by
  induction es generalizing out with
  | nil => simp
  | cons e es ih =>
    have hstep : renderAfter out e = out ++ ", " ++ e.text := by simp [renderAfter, h]
    have hne : out ++ ", " ++ e.text ≠ "" := by simp [h]
    rw [List.foldl_cons, hstep, ih hne, List.map_cons, String.intercalate_cons_append, String.intercalate_cons_cons]

/-- Before any text, nothing is set off. -/
theorem foldl_renderAfter_empty (es : List Expression) :
    es.foldl renderAfter "" = (Selector.ofExpressions (es.dropWhile Expression.isUnwritten)).text := by
  induction es with
  | nil => rfl
  | cons e es ih =>
    have hstep : renderAfter "" e = e.text := by simp [renderAfter]
    rw [List.foldl_cons, hstep, List.dropWhile_cons]
    by_cases he : e.text = ""
    · simpa [Expression.isUnwritten, he] using ih
    · rw [foldl_renderAfter_of_ne_empty he]
      simp [Expression.isUnwritten, he, Selector.text, Selector.ofExpressions]

/-- A view is rendered as the selector without the expressions at its front that are written as nothing. -/
theorem render_eq (v : View) :
    v.render = (Selector.ofExpressions (v.expressions.dropWhile Expression.isUnwritten)).text := by
  rw [← foldl_renderAfter_empty, render, fold_eq]
  rfl

end View

namespace Selector

/-- The number of separators that are written before any text: one after each expression at the front that is written as
nothing, the last expression excepted, after which there is none. -/
def leadingSeparators (es : List Expression) : Nat := (es.dropLast.takeWhile Expression.isUnwritten).length

theorem leadingSeparators_cons_cons (e f : Expression) (es : List Expression) :
    leadingSeparators (e :: f :: es) = if e.isUnwritten then leadingSeparators (f :: es) + 1 else 0 := by
  rw [leadingSeparators, List.dropLast_cons_cons, List.takeWhile_cons]
  split <;> rfl

/-- A selector is written with a separator for each expression at its front that is written as nothing. -/
theorem text_eq_join (es : List Expression) :
    text ⟨es⟩ = String.join (List.replicate (leadingSeparators es) ", ") ++
      (ofExpressions (es.dropWhile Expression.isUnwritten)).text := by
  induction es with
  | nil => rfl
  | cons e es ih =>
    cases es with
    | nil =>
      have hnone : leadingSeparators [e] = 0 := rfl
      by_cases he : e.text = "" <;> simp [text, ofExpressions, hnone, Expression.isUnwritten, he]
    | cons f es =>
      have htext : text ⟨e :: f :: es⟩ = e.text ++ ", " ++ text ⟨f :: es⟩ := String.intercalate_cons_cons
      rw [leadingSeparators_cons_cons, List.dropWhile_cons]
      cases he : e.isUnwritten with
      | true =>
        rw [htext, ih, String.isEmpty_iff.mp he]
        simp [List.replicate_succ, String.append_assoc]
      | false => simp [ofExpressions]

theorem leadingSeparators_eq_zero_iff {es : List Expression} :
    leadingSeparators es = 0 ↔ ∀ e f rest, es = e :: f :: rest → ¬e.isUnwritten := by
  rcases es with _ | ⟨e, _ | ⟨f, es⟩⟩
  · simp [leadingSeparators]
  · simp [leadingSeparators]
  · rw [leadingSeparators_cons_cons]
    cases he : e.isUnwritten <;> simp [he]

end Selector

/-- **How the two ways to write a view differ.** The selector of a view is written as the view is rendered, but with the
separators that come before any text. So the two texts are the same exactly if there is no more than one expression, or
the first one is written as something. -/
theorem View.render_eq_text_iff (v : View) :
    v.toSelector.text = String.join (List.replicate (Selector.leadingSeparators v.expressions) ", ") ++ v.render ∧
    (v.render = v.toSelector.text ↔
      ∀ e f rest, v.expressions = e :: f :: rest → ¬(e.operator = .present ∧ e.name = "")) := by
  have htext : v.toSelector.text =
      String.join (List.replicate (Selector.leadingSeparators v.expressions) ", ") ++ v.render := by
    rw [v.render_eq, ← Selector.text_eq_join, ← v.toSelector_expressions]
  refine ⟨htext, ?_⟩
  simp only [← Expression.isUnwritten_iff]
  rw [← Selector.leadingSeparators_eq_zero_iff, htext]
  constructor
  · intro h
    have hlength := congrArg String.length h
    cases hn : Selector.leadingSeparators v.expressions with
    | zero => rfl
    | succ n =>
      rw [hn, List.replicate_succ, String.join_cons, String.length_append, String.length_append] at hlength
      have hcomma : ", ".length = 2 := rfl
      omega
  · intro h
    simp [h]

/-- Two expressions, of which the first is written as nothing. -/
def View.unnamedFirst : View := .selector (.ofExpressions [.present "", .present "a"])

/-- The selector of the view is written with a comma, which the rendered text leaves out. -/
theorem View.render_leaves_out_comma :
    unnamedFirst.render = "a" ∧ unnamedFirst.toSelector.text = ", a" ∧
      unnamedFirst.render ≠ unnamedFirst.toSelector.text := by
  decide

end LabelFilter
