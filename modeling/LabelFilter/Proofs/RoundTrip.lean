import LabelFilter.Proofs.WrittenForm

/-!
# Writing selectors and reading them back

An expression is well-formed if it is made of labels and has the values that its operator needs. Exactly the selectors
of well-formed expressions are read back from their text (`Selector.ofText_text_iff`): those are written as phrases of
labels (`Phrase.exists_canonical`, `Phrase.labelled_iff_wellFormed`), and nothing else is ever read
(`Selector.wellFormed_of_ofText`).
-/

namespace LabelFilter

open Grammar

/-! ## Well-formed expressions -/

/-- The expression is made of labels, and has values exactly if it compares with them. -/
structure Expression.WellFormed (e : Expression) : Prop where
  name : isLabel e.name
  values : ∀ v ∈ e.values, isLabel v
  arity : e.operator.takesValues ↔ e.values ≠ []

theorem Grammar.Side.takesValues (side : Side) : side.operator.takesValues := by cases side <;> rfl

namespace Grammar.Phrase

/-- A phrase is made of labels exactly if it reads as a well-formed expression. -/
theorem labelled_iff_wellFormed {p : Phrase} : p.Labelled ↔ p.expression.WellFormed := by
  cases p with
  | listed name side first more =>
    constructor
    · exact fun ⟨hname, hvalues⟩ => ⟨hname, hvalues, iff_of_true side.takesValues (List.cons_ne_nil _ _)⟩
    · exact fun h => ⟨h.name, h.values⟩
  | compared name side value =>
    constructor
    · rintro ⟨hname, hvalue⟩
      refine ⟨hname, fun v hv => ?_, iff_of_true side.takesValues (List.cons_ne_nil _ _)⟩
      rwa [List.mem_singleton.mp hv]
    · exact fun h => ⟨h.name, h.values value List.mem_cons_self⟩
  | absent name | present name =>
    constructor
    · exact fun hname => ⟨hname, fun _ hv => (nomatch hv), iff_of_false Bool.false_ne_true (· rfl)⟩
    · exact fun h => h.name

/-- A phrase is made of labels if the labels among its leaves are. -/
theorem labelled_of_isLabel {p : Phrase} (h : ∀ text, .label text ∈ p.terminals → isLabel text) : p.Labelled := by
  cases p with
  | listed name side first more =>
    refine ⟨h name List.mem_cons_self, fun v hv => h v ?_⟩
    have hvalue : .label v ∈ valueTerminals first more := by
      rcases List.mem_cons.mp hv with rfl | hv
      · exact List.mem_cons_self
      · exact List.mem_cons_of_mem _ (List.mem_flatMap.mpr ⟨v, hv, by simp⟩)
    simp [terminals, hvalue]
  | compared name side value => exact ⟨h name List.mem_cons_self, h value (by simp [terminals])⟩
  | absent name => exact h name (by simp [terminals])
  | present name => exact h name List.mem_cons_self

/-- An expression that has values exactly if it needs them is written as a phrase. -/
theorem exists_canonical {e : Expression} (h : e.operator.takesValues ↔ e.values ≠ []) :
    ∃ p : Phrase, p.Canonical ∧ p.expression = e := by
  obtain ⟨name, operator, values⟩ := e
  have compares : ∀ side : Side, operator = side.operator → values ≠ [] →
      ∃ p : Phrase, p.Canonical ∧ p.expression = ⟨name, operator, values⟩ := by
    rintro side rfl hne
    match values with
    | [] => exact absurd rfl hne
    | [v] => exact ⟨.compared name side v, trivial, rfl⟩
    | v :: w :: more => exact ⟨.listed name side v (w :: more), List.cons_ne_nil _ _, rfl⟩
  have bare : operator.takesValues = false → values = [] := fun htakes =>
    Decidable.not_not.mp fun hne => absurd (htakes ▸ h.mpr hne) Bool.false_ne_true
  cases operator with
  | oneOf => exact compares .inside rfl (h.mp rfl)
  | noneOf => exact compares .outside rfl (h.mp rfl)
  | present =>
    obtain rfl := bare rfl
    exact ⟨.present name, trivial, rfl⟩
  | absent =>
    obtain rfl := bare rfl
    exact ⟨.absent name, trivial, rfl⟩

theorem exists_canonical_list {es : List Expression} (h : ∀ e ∈ es, e.operator.takesValues ↔ e.values ≠ []) :
    ∃ ps : List Phrase, (∀ p ∈ ps, p.Canonical) ∧ ps.map expression = es := by
  induction es with
  | nil => exact ⟨[], fun _ hp => (nomatch hp), rfl⟩
  | cons e es ih =>
    obtain ⟨p, hp, rfl⟩ := exists_canonical (h e List.mem_cons_self)
    obtain ⟨ps, hps, rfl⟩ := ih fun f hf => h f (List.mem_cons_of_mem _ hf)
    exact ⟨p :: ps, List.forall_mem_cons.mpr ⟨hp, hps⟩, rfl⟩

end Grammar.Phrase

open Lexeme

/-! ## The round trip -/

namespace Selector

/-- Well-formed expressions are read back from their text. -/
theorem ofText_text {s : Selector} (h : ∀ e ∈ s.expressions, e.WellFormed) : ofText s.text = .ok s := by
  obtain ⟨es⟩ := s
  obtain ⟨ps, hcanonical, rfl⟩ := Phrase.exists_canonical_list fun e he => (h e he).arity
  have hps : ∀ p ∈ ps, p.Labelled := fun p hp => Phrase.labelled_iff_wellFormed.mpr (h _ (List.mem_map_of_mem hp))
  exact ofText_eq_ok_iff.mpr
    ⟨lexemes ps, ps, (chars_lexemes hcanonical).symm, chain_lexemes hps, terminals_lexemes ps, rfl⟩

/-- Only well-formed expressions are read. -/
theorem wellFormed_of_ofText {text : String} {s : Selector} (h : ofText text = .ok s) :
    ∀ e ∈ s.expressions, e.WellFormed := by
  obtain ⟨ls, ps, _, hchain, hterminals, rfl⟩ := ofText_eq_ok_iff.mp h
  intro e he
  obtain ⟨p, hp, rfl⟩ := List.mem_map.mp he
  apply Phrase.labelled_iff_wellFormed.mp
  apply Phrase.labelled_of_isLabel
  intro text htext
  apply isLabel_of_label_mem hchain
  rw [hterminals]
  exact mem_terminals hp htext

/-- A selector is read back from its text exactly if its expressions are well-formed. -/
theorem ofText_text_iff {s : Selector} : ofText s.text = .ok s ↔ ∀ e ∈ s.expressions, e.WellFormed :=
  ⟨wellFormed_of_ofText, ofText_text⟩

/-- **Selectors survive writing and reading.** Well-formed expressions are read back from their text. Any text that is
read gives well-formed expressions, so its selector is read back from its own text, which is written as it stands. -/
theorem ofText_roundTrip :
    (∀ es : List Expression, (∀ e ∈ es, e.WellFormed) → ofText (ofExpressions es).text = .ok ⟨es⟩) ∧
    ∀ text s, ofText text = .ok s →
      (∀ e ∈ s.expressions, e.WellFormed) ∧ ofText s.text = .ok s ∧ (ofText s.text).map Selector.text = .ok s.text := by
  refine ⟨fun es hes => ofText_text hes, fun text s hs => ?_⟩
  have hwellFormed := wellFormed_of_ofText hs
  have hback := ofText_text hwellFormed
  exact ⟨hwellFormed, hback, by rw [hback]; rfl⟩

/-- The lexemes of ` index in(in-place),!notin1`. -/
def crowded : List Lexeme :=
  [mark .blank, ofLabel "index", mark .blank, mark .isIn, mark .opening, ofLabel "in-place", mark .closing, mark .comma,
    mark .bang, ofLabel "notin1"]

/-- Labels may begin with keywords. A list of one value is written with a sign, and the sign is read back. -/
theorem ofText_roundTrip_crowded :
    ofText " index in(in-place),!notin1" = .ok ⟨[.exact "index" "in-place", .absent "notin1"]⟩ ∧
    (ofExpressions [.exact "index" "in-place", .absent "notin1"]).text = "index = in-place, !notin1" ∧
    ofText "index = in-place, !notin1" = .ok ⟨[.exact "index" "in-place", .absent "notin1"]⟩ := by
  have hchars : " index in(in-place),!notin1".toList = chars crowded := by decide
  have hterminals : crowded.filterMap terminal? = terminals [.listed "index" .inside "in-place" [], .absent "notin1"] :=
    by decide
  have hread : ofText " index in(in-place),!notin1" = .ok ⟨[.exact "index" "in-place", .absent "notin1"]⟩ :=
    ofText_eq_ok_iff.mpr ⟨_, _, hchars, by decide +kernel, hterminals, rfl⟩
  have htext : (ofExpressions [.exact "index" "in-place", .absent "notin1"]).text = "index = in-place, !notin1" := by
    decide
  obtain ⟨hwellFormed, _⟩ := ofText_roundTrip.2 _ _ hread
  refine ⟨hread, htext, ?_⟩
  rw [← htext]
  exact ofText_roundTrip.1 _ hwellFormed

end Selector

end LabelFilter
