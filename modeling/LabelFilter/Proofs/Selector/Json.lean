import LabelFilter.Proofs.Expression.Defect
import LabelFilter.Proofs.Json.Strings
import LabelFilter.Selector.Json

/-!
# Selectors through JSON

A selector is written as JSON if none of its expressions has a defect, and reading the JSON gives what its text shows
(`Selector.ofJsonText_jsonText`). That is the selector itself unless an expression has values that its operator does not
take: those pass for no defect, and they are lost.
-/

namespace LabelFilter.Selector

open Json Reader

/-- What the written form shows of the selector. -/
def shown (s : Selector) : Selector := ⟨s.expressions.map Expression.shown⟩

theorem text_shown (s : Selector) : s.shown.text = s.text := by
  have htext : Expression.text ∘ Expression.shown = Expression.text := funext Expression.text_shown
  simp [shown, text, htext]

theorem shown_eq_iff {s : Selector} : s.shown = s ↔ ∀ e ∈ s.expressions, e.shown = e := by
  obtain ⟨es⟩ := s
  have hmap : es.map Expression.shown = es.map id ↔ ∀ e ∈ es, e.shown = e := List.map_inj_left
  rw [shown, mk.injEq, ← hmap, List.map_id]

theorem jsonText_eq_ok_iff {s : Selector} {text : String} :
    s.jsonText = .ok text ↔ (∀ e ∈ s.expressions, e.defect? = none) ∧ stringText s.text = text := by
  rw [← List.findSome?_eq_none_iff, jsonText]
  cases s.expressions.findSome? Expression.defect? <;> simp

/-- The JSON string of a text is read as the selector of the text. -/
theorem ofJsonText_stringText {text : String} {s : Selector} (h : ofText text = .ok s) :
    ofJsonText (stringText text) = .ok s := by
  have hstring : Reader.string (stringText text).toList = .ok (text, []) := by
    simpa using string_stringText text []
  have hread : read text = .ok s := by
    rw [read, h]
    rfl
  simp [ofJsonText, whole, reader, hstring, hread, bind, Except.bind, skipSpace]

/-- What is shown of expressions without a defect is read back from their text. -/
theorem ofText_text_shown {s : Selector} (h : ∀ e ∈ s.expressions, e.defect? = none) : ofText s.text = .ok s.shown := by
  rw [← text_shown]
  apply ofText_text
  intro e he
  obtain ⟨f, hf, rfl⟩ := List.mem_map.mp he
  exact Expression.wellFormed_shown (h f hf)

/-- **What JSON keeps of a selector.** A selector is read back from its text exactly if it is written as JSON at all and
its text shows all of it. Whenever it is written as JSON, reading the JSON gives what its text shows. -/
theorem ofJsonText_jsonText (s : Selector) :
    (ofText s.text = .ok s ↔ (∃ text, s.jsonText = .ok text) ∧ s.shown = s) ∧
    ∀ text, s.jsonText = .ok text → ofJsonText text = .ok s.shown := by
  constructor
  · rw [ofText_text_iff, shown_eq_iff]
    simp only [jsonText_eq_ok_iff, exists_and_left, exists_eq', and_true, Expression.wellFormed_iff]
    exact ⟨fun h => ⟨fun e he => (h e he).1, fun e he => (h e he).2⟩, fun h e he => ⟨h.1 e he, h.2 e he⟩⟩
  · intro text htext
    obtain ⟨hdefect, rfl⟩ := jsonText_eq_ok_iff.mp htext
    exact ofJsonText_stringText (ofText_text_shown hdefect)

/-- The value of the second expression is shown and kept, and that of the first is neither. -/
theorem ofJsonText_jsonText_mixed :
    (ofExpressions [⟨"a", .present, ["x"]⟩, .exact "index" "in-place"]).jsonText = .ok "\"a, index = in-place\"" ∧
    ofJsonText "\"a, index = in-place\"" = .ok (ofExpressions [.present "a", .exact "index" "in-place"]) := by
  have hjson : (ofExpressions [⟨"a", .present, ["x"]⟩, .exact "index" "in-place"]).jsonText =
      .ok "\"a, index = in-place\"" := jsonText_eq_ok_iff.mpr ⟨by decide, by decide⟩
  exact ⟨hjson, (ofJsonText_jsonText _).2 _ hjson⟩

/-- A selector that is written as JSON although it is not read back: its text does not show the value, so reading drops
it. -/
theorem jsonText_hides_value : ∃ text, (ofExpressions [⟨"a", .present, ["x"]⟩]).jsonText = .ok text ∧
    ofJsonText text = .ok (ofExpressions [.present "a"]) ∧
    ofText (ofExpressions [⟨"a", .present, ["x"]⟩]).text ≠ .ok (ofExpressions [⟨"a", .present, ["x"]⟩]) := by
  have hdefect : ∀ e ∈ (ofExpressions [⟨"a", .present, ["x"]⟩]).expressions, e.defect? = none := by decide
  refine ⟨_, jsonText_eq_ok_iff.mpr ⟨hdefect, rfl⟩, ofJsonText_stringText (ofText_text_shown hdefect), ?_⟩
  intro hread
  have harity := (wellFormed_of_ofText hread _ List.mem_cons_self).arity
  exact absurd (harity.mpr (List.cons_ne_nil _ _)) (by decide)

end LabelFilter.Selector
