import LabelFilter.Proofs.Grammar.Language
import LabelFilter.Proofs.Segmentation

/-!
# Texts that are selectors

A text is a selector exactly if its lexemes, less the blanks, are the leaves of a derivation
(`Selector.ofText_eq_ok_iff`). That joins the unique segmentation of texts to the unique derivation of tokens, and
positions do not come into it.
-/

namespace LabelFilter

open Grammar

namespace Lexeme

/-- The terminal that a lexeme stands for. Blanks stand for none. -/
def terminal? (l : Lexeme) : Option Terminal :=
  match l.kind with
  | .blank => none
  | .label => some (.label (String.ofList l.text))
  | kind => some (.mark kind)

/-- The tokens of lexemes are their terminals, wherever they are placed. -/
theorem terminal_place (offset : Nat) (ls : List Lexeme) :
    (place offset ls).map Token.terminal = ls.filterMap terminal? := by
  induction ls generalizing offset with
  | nil => rfl
  | cons l ls ih =>
    obtain ⟨kind, text⟩ := l
    cases kind
    case blank => exact ih _
    all_goals exact congrArg _ (ih _)

/-- A label among the lexemes of a text is one by `isLabel`. -/
theorem isLabel_of_label_mem {ls : List Lexeme} {left : List Char} {text : String} (hchain : Chain ls left)
    (hmem : .label text ∈ ls.filterMap terminal?) : isLabel text := by
  induction ls with
  | nil => cases hmem
  | cons l ls ih =>
    obtain ⟨hproper, _, hchain⟩ := hchain
    rw [List.filterMap_cons] at hmem
    split at hmem
    next => exact ih hchain hmem
    next x hx =>
      rcases List.mem_cons.mp hmem with rfl | hmem
      · cases hproper with
        | @word word hword =>
          unfold terminal? wordKind at hx
          cases hkeyword : Keyword.ofWord? word with
          | none =>
            rw [hkeyword] at hx
            cases hx
            rw [isLabel_iff, String.toList_ofList]
            exact ⟨hword, hkeyword⟩
          | some k => cases k <;> (rw [hkeyword] at hx; cases hx)
        | _ => cases hx
      · exact ih hchain hmem

end Lexeme

/-- A text is cut into the lexemes that make it up and each end before the next. -/
theorem tokenize_eq_ok_iff {text : String} {ts : List Token} :
    tokenize text = .ok ts ↔
      ∃ ls, text.toList = Lexeme.chars ls ∧ Lexeme.Chain ls [] ∧ ts = Lexeme.place 0 ls := by
  have hsplit : ∀ ls, Lexeme.split text.toList = (ls, []) ↔
      text.toList = Lexeme.chars ls ∧ Lexeme.Chain ls [] := fun ls => by
    rw [Lexeme.split_eq_iff, List.append_nil]
    exact and_congr_right fun _ => and_iff_left rfl
  unfold tokenize
  split
  next ls h =>
    constructor
    · intro hts
      exact ⟨ls, ((hsplit ls).mp h).1, ((hsplit ls).mp h).2, (Except.ok.inj hts).symm⟩
    · rintro ⟨ms, hchars, hchain, rfl⟩
      cases h.symm.trans ((hsplit ms).mpr ⟨hchars, hchain⟩)
      rfl
  next ls c rest h =>
    refine ⟨fun hts => (nomatch hts), ?_⟩
    rintro ⟨ms, hchars, hchain, rfl⟩
    cases h.symm.trans ((hsplit ms).mpr ⟨hchars, hchain⟩)

namespace Selector

theorem ofText_eq_ok_iff_tokenize {text : String} {s : Selector} :
    ofText text = .ok s ↔ ∃ ts, tokenize text = .ok ts ∧ ofTokens ts (Text.byteLength text.toList) = .ok s := by
  unfold ofText
  cases tokenize text with
  | error e => simp
  | ok ts => cases h : ofTokens ts (Text.byteLength text.toList) <;> simp [h]

/-- **A text is a selector** exactly if its lexemes stand for the leaves of a derivation, and it is the one that the
derivation reads as. -/
theorem ofText_eq_ok_iff {text : String} {s : Selector} :
    ofText text = .ok s ↔
      ∃ ls ps, text.toList = Lexeme.chars ls ∧ Lexeme.Chain ls [] ∧ ls.filterMap Lexeme.terminal? = terminals ps ∧
        s = ⟨ps.map Phrase.expression⟩ := by
  rw [ofText_eq_ok_iff_tokenize]
  constructor
  · rintro ⟨ts, hts, hs⟩
    obtain ⟨ls, hchars, hchain, rfl⟩ := tokenize_eq_ok_iff.mp hts
    obtain ⟨ps, hps, rfl⟩ := ofTokens_eq_ok_iff.mp hs
    exact ⟨ls, ps, hchars, hchain, (Lexeme.terminal_place 0 ls).symm.trans hps, rfl⟩
  · rintro ⟨ls, ps, hchars, hchain, hps, rfl⟩
    refine ⟨Lexeme.place 0 ls, tokenize_eq_ok_iff.mpr ⟨ls, hchars, hchain, rfl⟩, ?_⟩
    exact ofTokens_eq_ok_iff.mpr ⟨ps, (Lexeme.terminal_place 0 ls).trans hps, rfl⟩

end Selector

end LabelFilter
