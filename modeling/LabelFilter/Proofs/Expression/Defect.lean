import LabelFilter.Proofs.RoundTrip

/-!
# Expressions without a defect

`Expression.defect?` looks at the name, the values and whether there are values where the operator needs them. It does
not look for values that the operator does not take, and the written form does not show them either
(`Expression.text_shown`). So an expression is well-formed if it has no defect and shows all that it has
(`Expression.wellFormed_iff`), and what an expression without a defect shows is always well-formed
(`Expression.wellFormed_shown`).
-/

namespace LabelFilter

namespace Expression

/-- What the written form shows of the expression: values only if the operator compares with them. -/
def shown (e : Expression) : Expression := { e with values := if e.operator.takesValues then e.values else [] }

theorem shown_eq_iff {e : Expression} : e.shown = e ↔ (e.values ≠ [] → e.operator.takesValues) := by
  obtain ⟨name, operator, values⟩ := e
  cases h : operator.takesValues <;> simp [shown, h, eq_comm]

/-- Expressions that show the same are written alike. -/
theorem text_shown (e : Expression) : e.shown.text = e.text := by
  obtain ⟨name, operator, values⟩ := e
  cases operator <;> rfl

theorem defect?_eq_none_iff {e : Expression} : e.defect? = none ↔
    isLabel e.name ∧ (∀ v ∈ e.values, isLabel v) ∧ (e.operator.takesValues → e.values ≠ []) := by
  have hfind : (e.name :: e.values).find? (fun text => !isLabel text) = none ↔
      isLabel e.name ∧ ∀ v ∈ e.values, isLabel v := by
    simp [List.find?_eq_none]
  unfold defect?
  rw [← and_assoc, ← hfind]
  cases (e.name :: e.values).find? fun text => !isLabel text with
  | some text => simp
  | none => simp [List.isEmpty_iff]

/-- An expression is well-formed exactly if it has no defect and no values that its operator does not take. -/
theorem wellFormed_iff {e : Expression} : e.WellFormed ↔ e.defect? = none ∧ e.shown = e := by
  rw [defect?_eq_none_iff, shown_eq_iff]
  constructor
  · exact fun h => ⟨⟨h.name, h.values, h.arity.mp⟩, h.arity.mpr⟩
  · exact fun ⟨⟨hname, hvalues, hneeded⟩, htaken⟩ => ⟨hname, hvalues, hneeded, htaken⟩

/-- What an expression without a defect shows is well-formed. -/
theorem wellFormed_shown {e : Expression} (h : e.defect? = none) : e.shown.WellFormed := by
  obtain ⟨hname, hvalues, hneeded⟩ := defect?_eq_none_iff.mp h
  cases htakes : e.operator.takesValues with
  | true =>
    have hshown : e.shown = e := shown_eq_iff.mpr fun _ => htakes
    rw [hshown]
    exact wellFormed_iff.mpr ⟨h, hshown⟩
  | false =>
    have hvalues : e.shown.values = [] := by simp [shown, htakes]
    refine ⟨hname, ?_, iff_of_false ?_ (· hvalues)⟩
    · intro v hv
      rw [hvalues] at hv
      cases hv
    · exact Bool.not_eq_true _ ▸ htakes

end Expression

end LabelFilter
