import LabelFilter.Proofs.Tokens

/-!
# Where a text stops being a selector

A text whose tokens are refused has its fault where the lexeme of a token begins, or at its end, and a selector begins
with what comes before (`Selector.pinpoints_of_ofText`).

Lexemes that the places go on with begin a selector, because the phrase under way can be completed behind a blank
(`Selector.completable_of_walk`). A refusal cuts the lexemes in two, and the first part is such a beginning
(`Selector.exists_lexemes_of_unexpected`).
-/

namespace LabelFilter

open Text Grammar

namespace Lexeme

/-! ## Beginnings of texts -/

/-- The lexemes before a lexeme follow one another by themselves. -/
theorem Chain.of_append {ls ms : List Lexeme} {left : List Char} (h : Chain (ls ++ ms) left) : Chain ls [] :=
  (chain_iff_last.mp (chain_append.mp h).1).1

theorem Chain.loose {ls : List Lexeme} (h : Chain ls []) : Loose ls := by
  induction ls with
  | nil => trivial
  | cons l ls ih =>
    obtain ⟨hproper, hends, hchain⟩ := h
    rw [List.append_nil] at hends
    exact ⟨hproper, fun _ => hends, ih hchain⟩

/-- After lexemes and a blank, any lexemes may follow. -/
theorem loose_append_blank {ls ms : List Lexeme} (h : Chain ls []) (hms : Chain (mark .blank :: ms) []) :
    Loose (ls ++ mark .blank :: ms) := by
  induction ls with
  | nil => exact hms.loose
  | cons l ls ih =>
    obtain ⟨hproper, hends, hchain⟩ := h
    refine ⟨hproper, ?_, ih hchain⟩
    intro hl
    cases ls with
    | nil => exact endsBefore_space hl _
    | cons m ls =>
      have hm : m.text ≠ [] := hchain.1.text_ne_nil
      rw [List.append_nil, chars_cons, endsBefore_append hm] at hends
      show l.EndsBefore (m.text ++ chars (ls ++ mark .blank :: ms))
      exact (endsBefore_append hm _).mpr hends

/-- The tokens before a token are those of the lexemes before its own. -/
theorem place_eq_append_cons {offset : Nat} {ls : List Lexeme} {us ts : List Token} {t : Token}
    (h : place offset ls = us ++ t :: ts) :
    ∃ before l after, ls = before ++ l :: after ∧ place offset before = us ∧ l.kind ≠ .blank ∧ t.kind = l.kind ∧
      t.offset = offset + byteLength (chars before) := by
  induction ls generalizing offset us with
  | nil => simp [place] at h
  | cons l ls ih =>
    rw [place_cons] at h
    by_cases hblank : l.kind = .blank
    · rw [place_of_blank offset hblank, List.nil_append] at h
      obtain ⟨before, m, after, rfl, rfl, hm, hkind, hoffset⟩ := ih h
      refine ⟨l :: before, m, after, rfl, ?_, hm, hkind, ?_⟩
      · rw [place_cons, place_of_blank offset hblank, List.nil_append]
      · rw [chars_cons, byteLength_append]
        omega
    · have hl := place_of_not_blank offset hblank
      rw [hl] at h
      cases us with
      | nil =>
        obtain ⟨rfl, _⟩ := List.cons.inj h
        exact ⟨[], l, ls, rfl, rfl, hblank, rfl, rfl⟩
      | cons u us =>
        obtain ⟨rfl, hlater⟩ := List.cons.inj h
        obtain ⟨before, m, after, rfl, rfl, hm, hkind, hoffset⟩ := ih hlater
        refine ⟨l :: before, m, after, rfl, ?_, hm, hkind, ?_⟩
        · rw [place_cons, hl]
          rfl
        · rw [chars_cons, byteLength_append]
          omega

end Lexeme

namespace Grammar

open Lexeme

/-- A way to write a kind. -/
def sample : TokenKind → Lexeme
  | .label => ofLabel "a"
  | kind => mark kind

/-- What completes the phrase under way, behind a blank. -/
def Place.ending (p : Place) : List Lexeme := mark .blank :: p.completion.map sample

theorem Place.chain_ending (p : Place) : Chain p.ending [] := by
  cases p <;> decide +kernel

theorem Place.kinds_ending (p : Place) (offset : Nat) : (place offset p.ending).map Token.kind = p.completion := by
  cases p <;> rfl

/-- Tokens that the places go on with are completed by tokens of the kinds that complete the phrase under way. -/
theorem complete_of_walk {us vs : List Token} {p : Place} (hwalk : Place.start.walk (us.map Token.kind) = some p)
    (hvs : vs.map Token.kind = p.completion) : Complete ((us ++ vs).map Token.kind) := by
  obtain ⟨q, hq, hend⟩ := p.walk_completion
  refine complete_iff_walk.mpr ⟨q, ?_, hend⟩
  rw [List.map_append, hvs, Place.walk_append, hwalk]
  exact hq

end Grammar

namespace Selector

/-! ## Faults -/

/-- A selector begins with the text. -/
def Completable (text : String) : Prop := ∃ more s, ofText (text ++ more) = .ok s

/-- Tokens of complete kinds are read. -/
theorem exists_ofText_of_complete {text : String} {ts : List Token} (h : tokenize text = .ok ts)
    (hts : Complete (ts.map Token.kind)) : ∃ s, ofText text = .ok s := by
  obtain ⟨ps, hps⟩ := exists_derives_iff.mpr (derivable_iff.mpr (.inr hts))
  exact ⟨_, ofText_eq_ok_iff_tokenize.mpr ⟨ts, h, ofTokens_eq_ok_iff.mpr ⟨ps, hps, rfl⟩⟩⟩

/-- Lexemes that the places go on with begin a selector. -/
theorem completable_of_walk {ls : List Lexeme} {p : Place} (h : Lexeme.Chain ls [])
    (hwalk : Place.start.walk ((Lexeme.place 0 ls).map Token.kind) = some p) :
    Completable (String.ofList (Lexeme.chars ls)) := by
  have hloose : Lexeme.Loose (ls ++ p.ending) := Lexeme.loose_append_blank h p.chain_ending
  have htext : (String.ofList (Lexeme.chars ls) ++ String.ofList (Lexeme.chars p.ending)).toList =
      Lexeme.chars (ls ++ p.ending) := by
    rw [String.toList_append, String.toList_ofList, String.toList_ofList, Lexeme.chars_append]
  have htokens := tokenize_of_loose htext hloose
  rw [Lexeme.place_append] at htokens
  exact ⟨_, exists_ofText_of_complete htokens (complete_of_walk hwalk (p.kinds_ending _))⟩

/-- A stray character is one that the tokens end at. -/
theorem tokenize_of_stray {text : String} {c : StrayCharacter} (h : ofText text = .error (.stray c)) :
    tokenize text = .error c := by
  cases htokens : tokenize text with
  | error d =>
    rw [ofText, htokens] at h
    cases h
    rfl
  | ok ts =>
    rw [ofText_of_tokenize htokens] at h
    cases hread : ofTokens ts (byteLength text.toList) <;> (rw [hread] at h; cases h)

/-- An unexpected symbol is one among the tokens. -/
theorem tokenize_of_unexpected {text : String} {e : UnexpectedSymbol} (h : ofText text = .error (.unexpected e)) :
    ∃ ts, tokenize text = .ok ts ∧ ofTokens ts (byteLength text.toList) = .error e := by
  cases htokens : tokenize text with
  | error c =>
    rw [ofText, htokens] at h
    cases h
  | ok ts =>
    rw [ofText_of_tokenize htokens] at h
    refine ⟨ts, rfl, ?_⟩
    cases hread : ofTokens ts (byteLength text.toList) with
    | ok s =>
      rw [hread] at h
      cases h
    | error e' =>
      rw [hread] at h
      cases h
      rfl

/-- A stop of the run over the tokens of lexemes is the fault of their text. -/
theorem ofText_of_run_eq_error {text : String} {ls : List Lexeme} {stop : Stop} (hchars : text.toList = Lexeme.chars ls)
    (hchain : Lexeme.Chain ls []) (hls : Lexeme.place 0 ls ≠ []) (hrun : run .start (Lexeme.place 0 ls) = .error stop) :
    ofText text = .error (.unexpected ⟨frontOffset (byteLength text.toList) stop.rest,
      (Lexeme.place 0 ls).length - stop.rest.length, front stop.rest, stop.expected⟩) := by
  have htokens : tokenize text = .ok (Lexeme.place 0 ls) := tokenize_eq_ok_iff.mpr ⟨_, hchars, hchain, rfl⟩
  rw [ofText_of_tokenize htokens, ofTokens_of_run_eq_error _ hls hrun]
  rfl

/-- A refusal cuts the lexemes in two: the places go on with the first part, and the second one begins with the symbol
that is refused. -/
theorem exists_lexemes_of_unexpected {text : String} {e : UnexpectedSymbol}
    (h : ofText text = .error (.unexpected e)) :
    ∃ ls ms p, text.toList = Lexeme.chars (ls ++ ms) ∧ Lexeme.Chain (ls ++ ms) [] ∧
      Place.start.walk ((Lexeme.place 0 ls).map Token.kind) = some p ∧ e.position = (Lexeme.place 0 ls).length ∧
      e.offset = byteLength (Lexeme.chars ls) ∧
      (e.found = .ending ∧ ms = [] ∨ ∃ l later, e.found = .token l.kind ∧ ms = l :: later ∧ l.kind ≠ .blank) := by
  obtain ⟨ts, htokens, hrefused⟩ := tokenize_of_unexpected h
  obtain ⟨us, rest, p, hts, hwalk, _, rfl⟩ := split_of_ofTokens_eq_error hrefused
  obtain ⟨ls, hchars, hchain, hplace⟩ := tokenize_eq_ok_iff.mp htokens
  cases rest with
  | nil =>
    obtain rfl : us = Lexeme.place 0 ls := by rw [← hplace, hts, List.append_nil]
    refine ⟨ls, [], p, ?_, ?_, hwalk, rfl, congrArg byteLength hchars, Or.inl ⟨rfl, rfl⟩⟩
    · rw [List.append_nil, hchars]
    · rwa [List.append_nil]
  | cons t rest =>
    obtain ⟨before, l, after, rfl, rfl, hl, hkind, hoffset⟩ := Lexeme.place_eq_append_cons (hplace.symm.trans hts)
    rw [Nat.zero_add] at hoffset
    exact ⟨before, l :: after, p, hchars, hchain, hwalk, rfl, hoffset,
      Or.inr ⟨l, after, congrArg Symbol.token hkind, rfl, hl⟩⟩

/-- Token number `position` of the text is of the kind, and its lexeme begins at the offset. -/
structure TokenAt (text : String) (position : Nat) (kind : TokenKind) (offset : Nat) : Prop where
  token : ∃ ts t, tokenize text = .ok ts ∧ ts[position]? = some t ∧ t.kind = kind ∧ t.offset = offset
  lexeme : ∃ ls l ms, Lexeme.split text.toList = (ls ++ l :: ms, []) ∧ (Lexeme.place 0 ls).length = position ∧
    l.kind = kind ∧ byteLength (Lexeme.chars ls) = offset

/-- A lexeme that is no blank has its token behind those of the lexemes before it. -/
theorem tokenAt_of_lexeme {text : String} {ls ms : List Lexeme} {l : Lexeme}
    (hchars : text.toList = Lexeme.chars (ls ++ l :: ms)) (hchain : Lexeme.Chain (ls ++ l :: ms) [])
    (hl : l.kind ≠ .blank) :
    TokenAt text (Lexeme.place 0 ls).length l.kind (byteLength (Lexeme.chars ls)) := by
  have hsplit : Lexeme.split text.toList = (ls ++ l :: ms, []) :=
    Lexeme.split_eq_iff.mpr ⟨by rw [List.append_nil, hchars], hchain, rfl⟩
  let t : Token :=
    ⟨l.kind, if l.kind = .label then some (String.ofList l.text) else none, byteLength (Lexeme.chars ls)⟩
  have hplace : Lexeme.place 0 (ls ++ l :: ms) =
      Lexeme.place 0 ls ++ t :: Lexeme.place (byteLength (Lexeme.chars ls) + byteLength l.text) ms := by
    rw [Lexeme.place_append, Nat.zero_add, Lexeme.place_cons, Lexeme.place_of_not_blank _ hl]
    rfl
  have hget : (Lexeme.place 0 (ls ++ l :: ms))[(Lexeme.place 0 ls).length]? = some t := by
    rw [hplace, List.getElem?_append_right (Nat.le_refl _), Nat.sub_self, List.getElem?_cons_zero]
  have htokens : tokenize text = .ok (Lexeme.place 0 (ls ++ l :: ms)) :=
    tokenize_eq_ok_iff.mpr ⟨_, hchars, hchain, rfl⟩
  exact ⟨⟨_, _, htokens, hget, rfl, rfl⟩, ⟨ls, l, ms, hsplit, rfl, rfl, rfl⟩⟩

/-- The symbol is found where a token of the text begins, or at the end of the text, and a selector begins with what
comes before it. -/
structure Pinpoints (text : String) (e : UnexpectedSymbol) : Prop where
  /-- A selector begins with the characters before the offset. -/
  before : ∃ before rest, text = before ++ rest ∧ byteLength before.toList = e.offset ∧ Completable before
  ending : e.found = .ending → e.offset = byteLength text.toList ∧ Completable text
  token : ∀ kind, e.found = .token kind → TokenAt text e.position kind e.offset

/-- **A refusal is pinpointed in the text.** The symbol that is refused is a token of the text or its end. Its offset is
where the lexeme of that token begins or the text ends, and what comes before can be completed to a selector. -/
theorem pinpoints_of_ofText {text : String} {e : UnexpectedSymbol} (h : ofText text = .error (.unexpected e)) :
    Pinpoints text e := by
  obtain ⟨ls, ms, p, hchars, hchain, hwalk, hposition, hoffset, hfound⟩ := exists_lexemes_of_unexpected h
  have hbefore : Completable (String.ofList (Lexeme.chars ls)) := completable_of_walk hchain.of_append hwalk
  have htext : text = String.ofList (Lexeme.chars ls) ++ String.ofList (Lexeme.chars ms) := by
    rw [← String.ofList_append, ← Lexeme.chars_append, ← hchars, String.ofList_toList]
  constructor
  case before => exact ⟨_, _, htext, by rw [String.toList_ofList, hoffset], hbefore⟩
  case ending =>
    intro hending
    rcases hfound with ⟨_, rfl⟩ | ⟨l, later, htoken, _, _⟩
    · rw [List.append_nil] at hchars
      rw [← hchars, String.ofList_toList] at hbefore
      exact ⟨by rw [hoffset, hchars], hbefore⟩
    · cases hending.symm.trans htoken
  case token =>
    intro kind hkind
    rcases hfound with ⟨hending, _⟩ | ⟨l, later, htoken, rfl, hl⟩
    · cases hending.symm.trans hkind
    · cases htoken.symm.trans hkind
      rw [hposition, hoffset]
      exact tokenAt_of_lexeme hchars hchain hl

/-- The lexemes of `é in (b,) c`. The list is cut short behind its comma. -/
def openList : List Lexeme :=
  [Lexeme.ofLabel "é", Lexeme.mark .blank, Lexeme.mark .isIn, Lexeme.mark .blank, Lexeme.mark .opening,
    Lexeme.ofLabel "b", Lexeme.mark .comma, Lexeme.mark .closing, Lexeme.mark .blank, Lexeme.ofLabel "c"]

theorem pinpoints_of_ofText_openList :
    ofText "é in (b,) c" = .error (.unexpected ⟨9, 5, .token .closing, [.token .label]⟩) ∧
    TokenAt "é in (b,) c" 5 .closing 9 := by
  have hchars : "é in (b,) c".toList = Lexeme.chars openList := by decide
  have hchain : Lexeme.Chain openList [] := by decide +kernel
  have hrun : run .start (Lexeme.place 0 openList) =
      .error ⟨[⟨.closing, none, 9⟩, ⟨.label, some "c", 11⟩], [.token .label]⟩ := rfl
  have hread : ofText "é in (b,) c" = .error (.unexpected ⟨9, 5, .token .closing, [.token .label]⟩) :=
    ofText_of_run_eq_error hchars hchain (by decide) hrun
  exact ⟨hread, (pinpoints_of_ofText hread).token _ rfl⟩

end Selector

end LabelFilter
