import LabelFilter.Proofs.Concatenation
import LabelFilter.Proofs.RoundTrip

/-!
# Texts with a comma between them

A selector, a comma and any text that is not blank are read as the selector and the text are: the expressions of the
text come after those of the selector, and a fault of the text is the same fault, behind the selector and the comma
(`Selector.ofText_append_comma`).

A comma never belongs to a lexeme beside it (`Lexeme.chain_comma`), so the tokens of the whole are known. A run that
may end goes on from a comma as from the start (`Grammar.run_append_comma`), and no run looks at positions
(`Grammar.run_shift`).
-/

namespace LabelFilter

open Text Grammar

/-! ## Further on -/

/-- The symbol behind more bytes and tokens. -/
def UnexpectedSymbol.shift (bytes tokens : Nat) (e : UnexpectedSymbol) : UnexpectedSymbol :=
  { e with offset := e.offset + bytes, position := e.position + tokens }

/-- The fault behind more bytes and tokens. -/
def SyntaxFault.shift (bytes tokens : Nat) : SyntaxFault → SyntaxFault
  | stray e => .stray (e.shift bytes)
  | unexpected e => .unexpected (e.shift bytes tokens)

/-! ## Tokens -/

namespace Lexeme

theorem endsBefore_comma (l : Lexeme) (rest : List Char) : l.EndsBefore (',' :: rest) :=
  endsBefore_of_not_isLabelChar (by decide) (by decide) (fun _ => by decide) rest

/-- The lexemes of a text and a comma after them end before any text. -/
theorem chain_comma {ls : List Lexeme} (h : Chain ls []) (cs : List Char) : Chain (ls ++ [mark .comma]) cs := by
  refine chain_append.mpr ⟨chain_iff_last.mpr ⟨h, fun l _ => endsBefore_comma l cs⟩, ?_⟩
  exact ⟨proper_mark (by decide), fun c _ => rfl, trivial⟩

end Lexeme

/-- A text and a comma have the tokens of the text and the comma, and what follows them has its own tokens. -/
theorem tokenize_append_comma {a : String} {us : List Token} (ha : tokenize a = .ok us) (b : String) :
    tokenize (a ++ "," ++ b) =
      ((tokenize b).map fun ts =>
          us ++ ⟨.comma, none, byteLength a.toList⟩ :: ts.map (Token.shift (byteLength a.toList + 1))).mapError
        (StrayCharacter.shift (byteLength a.toList + 1)) := by
  obtain ⟨ls, hchars, hchain, rfl⟩ := tokenize_eq_ok_iff.mp ha
  have htext : (a ++ ",").toList = Lexeme.chars (ls ++ [Lexeme.mark .comma]) := by
    rw [String.toList_append, hchars, Lexeme.chars_append]
    rfl
  have hbytes : byteLength (a ++ ",").toList = byteLength a.toList + 1 := by
    rw [String.toList_append, byteLength_append]
    rfl
  have hplace : Lexeme.place 0 (ls ++ [Lexeme.mark .comma]) =
      Lexeme.place 0 ls ++ [⟨.comma, none, byteLength a.toList⟩] := by
    rw [Lexeme.place_append, hchars, Nat.zero_add]
    rfl
  rw [tokenize_append htext (Lexeme.chain_comma hchain b.toList), hbytes, hplace]
  simp only [List.append_assoc, List.cons_append, List.nil_append]

namespace Grammar

/-! ## Runs -/

/-- The stop at tokens behind more bytes. -/
def Stop.shift (bytes : Nat) (s : Stop) : Stop := { s with rest := s.rest.map (Token.shift bytes) }

/-- A run does not look at positions. -/
theorem run_shift (bytes : Nat) (state : State) (ts : List Token) :
    run state (ts.map (Token.shift bytes)) = (run state ts).mapError (Stop.shift bytes) :=
  run_map (Token.terminal_shift bytes) state ts

/-- Where a run may end, a comma leads back to the start. -/
theorem run_append_comma {state : State} {us : List Token} {ps : List Phrase} {comma : Token}
    (h : run state us = .ok ps) (hcomma : comma.terminal = .mark .comma) (ts : List Token) :
    run state (us ++ comma :: ts) = (ps ++ ·) <$> run .start ts := by
  induction us generalizing state ps with
  | nil =>
    rw [run] at h
    split at h
    next p hp =>
      cases h
      rw [List.nil_append, run, hcomma, State.next?_comma_of_phrase? hp]
      rfl
    next => cases h
  | cons u us ih =>
    rw [run] at h
    rw [List.cons_append, run]
    split at h
    next => exact ih h
    next p _ =>
      cases hr : run .start us with
      | error s => rw [hr] at h; cases h
      | ok qs =>
        rw [hr] at h
        cases h
        simp only [ih hr]
        cases run .start ts <;> rfl
    next => cases h

end Grammar

namespace Selector

/-- Tokens that are not none are read by a run. -/
theorem ofTokens_eq_run {ts : List Token} (h : ts ≠ []) (length : Nat) :
    ofTokens ts length =
      match run .start ts with
      | .ok ps => .ok ⟨ps.map Phrase.expression⟩
      | .error s => .error ⟨frontOffset length s.rest, ts.length - s.rest.length, front s.rest, s.expected⟩ := by
  cases hrun : run .start ts with
  | ok ps => exact ofTokens_of_parse_ok length (by rw [parse_eq_run h, hrun]; rfl)
  | error s => exact ofTokens_of_run_eq_error length h hrun

/-- A function of positions that moves the tokens and the end moves what comes first. -/
theorem frontOffset_map {f : Token → Token} {g : Nat → Nat} (hf : ∀ t, (f t).offset = g t.offset) (length : Nat)
    (ts : List Token) : frontOffset (g length) (ts.map f) = g (frontOffset length ts) := by
  cases ts with
  | nil => rfl
  | cons t ts => exact hf t

/-- The tokens of a selector, a comma and more tokens are read as the selector and those are. -/
theorem ofTokens_append_comma {us ts : List Token} {ps : List Phrase} {comma : Token} (hus : run .start us = .ok ps)
    (hcomma : comma.terminal = .mark .comma) (hts : ts ≠ []) (length bytes : Nat) :
    ofTokens (us ++ comma :: ts.map (Token.shift bytes)) (length + bytes) =
      ((ofTokens ts length).map fun t => ⟨ps.map Phrase.expression ++ t.expressions⟩).mapError
        (UnexpectedSymbol.shift bytes (us.length + 1)) := by
  rw [ofTokens_eq_run (by simp), ofTokens_eq_run hts, run_append_comma hus hcomma, run_shift]
  cases hrun : run .start ts with
  | ok qs => exact congrArg (fun es => Except.ok (Selector.mk es)) List.map_append
  | error s =>
    let rest := s.rest.map (Token.shift bytes)
    have hoffset : frontOffset (length + bytes) rest = frontOffset length s.rest + bytes :=
      frontOffset_map (f := Token.shift bytes) (g := (· + bytes)) (fun _ => rfl) length s.rest
    have hposition : (us ++ comma :: ts.map (Token.shift bytes)).length - rest.length =
        ts.length - s.rest.length + (us.length + 1) := by
      have hle := length_le_of_run_eq_error hrun
      simp only [rest, List.length_append, List.length_cons, List.length_map]
      omega
    have hfront : front rest = front s.rest := front_map (Token.terminal_shift bytes) s.rest
    have hfault : UnexpectedSymbol.mk (frontOffset (length + bytes) rest)
        ((us ++ comma :: ts.map (Token.shift bytes)).length - rest.length) (front rest) s.expected =
        UnexpectedSymbol.shift bytes (us.length + 1)
          ⟨frontOffset length s.rest, ts.length - s.rest.length, front s.rest, s.expected⟩ := by
      rw [hoffset, hposition, hfront]
      rfl
    exact congrArg Except.error hfault

/-- A selector with an expression is read by a run over its tokens. -/
theorem run_of_ofText {a : String} {s : Selector} (h : ofText a = .ok s) (hs : s.expressions ≠ []) :
    ∃ us ps, tokenize a = .ok us ∧ run .start us = .ok ps ∧ ps.map Phrase.expression = s.expressions := by
  obtain ⟨us, hus, htokens⟩ := ofText_eq_ok_iff_tokenize.mp h
  obtain ⟨ps, hps, rfl⟩ := ofTokens_eq_ok_iff.mp htokens
  have hne : ps ≠ [] := fun h => hs (by rw [h]; rfl)
  exact ⟨us, ps, hus, run_terminals hne hps, rfl⟩

/-- The tokens of a text decide what it is read as. -/
theorem ofText_of_tokenize {text : String} {ts : List Token} (h : tokenize text = .ok ts) :
    ofText text = (ofTokens ts (byteLength text.toList)).mapError .unexpected := by
  cases hs : ofTokens ts (byteLength text.toList) <;> simp only [ofText, h, hs] <;> rfl

/-- What comes after a selector and a comma is read as it is by itself, but further on. -/
theorem ofText_eq_shift {a b : String} {s : Selector} {us : List Token} {ps : List Phrase} (hus : tokenize a = .ok us)
    (hrun : run .start us = .ok ps) (hps : ps.map Phrase.expression = s.expressions)
    (hb : ∃ c ∈ b.toList, isBlank c = false) :
    ofText (a ++ "," ++ b) =
      ((ofText b).map fun t => ⟨s.expressions ++ t.expressions⟩).mapError
        (SyntaxFault.shift (byteLength a.toList + 1) (us.length + 1)) := by
  have hwhole := tokenize_append_comma hus b
  cases hts : tokenize b with
  | error e =>
    rw [hts] at hwhole
    unfold ofText
    rw [hwhole, hts]
    rfl
  | ok ts =>
    rw [hts] at hwhole
    have hlength : byteLength (a ++ "," ++ b).toList = byteLength b.toList + (byteLength a.toList + 1) := by
      rw [String.toList_append, String.toList_append, byteLength_append, byteLength_append, Nat.add_comm]
      rfl
    have hcomma : Token.terminal ⟨.comma, none, byteLength a.toList⟩ = .mark .comma := rfl
    have hread := ofTokens_append_comma hrun hcomma (tokens_ne_nil hts hb) (byteLength b.toList)
      (byteLength a.toList + 1)
    rw [ofText_of_tokenize hwhole, hlength, hread, hps, ofText_of_tokenize hts]
    cases ofTokens ts (byteLength b.toList) <;> rfl

/-- **A comma joins texts.** What comes after a selector and a comma is read as it is by itself, and its faults are the
same faults, further on by the bytes and the tokens of the selector and the comma. -/
theorem ofText_append_comma {a b : String} {s : Selector} (ha : ofText a = .ok s) (hs : s.expressions ≠ [])
    (hb : ∃ c ∈ b.toList, isBlank c = false) :
    ∃ us, tokenize a = .ok us ∧
      (∀ t, ofText b = .ok t → ofText (a ++ "," ++ b) = .ok ⟨s.expressions ++ t.expressions⟩) ∧
      (∀ e, ofText b = .error (.stray e) →
        ofText (a ++ "," ++ b) = .error (.stray ⟨e.offset + (byteLength a.toList + 1), e.found⟩)) ∧
      (∀ e, ofText b = .error (.unexpected e) →
        ofText (a ++ "," ++ b) = .error (.unexpected
          ⟨e.offset + (byteLength a.toList + 1), e.position + (us.length + 1), e.found, e.expected⟩)) := by
  obtain ⟨us, ps, hus, hrun, hps⟩ := run_of_ofText ha hs
  have hwhole := ofText_eq_shift hus hrun hps hb
  refine ⟨us, hus, fun t ht => ?_, fun e he => ?_, fun e he => ?_⟩
  · rw [hwhole, ht]
    rfl
  · rw [hwhole, he]
    rfl
  · rw [hwhole, he]
    rfl

/-- The lexemes of `é = notin1`. -/
def accented : List Lexeme :=
  [Lexeme.ofLabel "é", Lexeme.mark .blank, Lexeme.mark .equals, Lexeme.mark .blank, Lexeme.ofLabel "notin1"]

/-- The text after the comma ends where a name should be, and so does the whole. -/
theorem ofText_append_comma_cutShort :
    ofText "é = notin1" = .ok ⟨[.exact "é" "notin1"]⟩ ∧
    ofText "!" = .error (.unexpected ⟨1, 1, .ending, [.token .label]⟩) ∧
    ofText "é = notin1,!" = .error (.unexpected ⟨13, 5, .ending, [.token .label]⟩) := by
  have hchars : "é = notin1".toList = Lexeme.chars accented := by decide
  have hchain : Lexeme.Chain accented [] := by decide +kernel
  have hread : ofText "é = notin1" = .ok ⟨[.exact "é" "notin1"]⟩ :=
    ofText_eq_ok_iff.mpr ⟨_, [.compared "é" .inside "notin1"], hchars, hchain, by decide, rfl⟩
  have hbang : tokenize "!" = .ok [⟨.bang, none, 0⟩] :=
    tokenize_eq_ok_iff.mpr ⟨[Lexeme.mark .bang], by decide, by decide, rfl⟩
  have hrun : run .start [⟨.bang, none, 0⟩] = .error ⟨[], [.token .label]⟩ := rfl
  have htokens : ofTokens [⟨.bang, none, 0⟩] 1 = .error ⟨1, 1, .ending, [.token .label]⟩ :=
    ofTokens_of_run_eq_error 1 (List.cons_ne_nil _ _) hrun
  have hlength : byteLength "!".toList = 1 := by decide
  have hfault : ofText "!" = .error (.unexpected ⟨1, 1, .ending, [.token .label]⟩) := by
    rw [ofText_of_tokenize hbang, hlength, htokens]
    rfl
  obtain ⟨us, hus, _, _, hunexpected⟩ := ofText_append_comma hread (List.cons_ne_nil _ _)
    (b := "!") ⟨'!', by decide, by decide⟩
  cases hus.symm.trans (tokenize_eq_ok_iff.mpr ⟨_, hchars, hchain, rfl⟩)
  exact ⟨hread, hfault, hunexpected _ hfault⟩

end Selector

end LabelFilter
