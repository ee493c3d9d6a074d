import LabelFilter.Proofs.Selector.Joining

/-!
# Blanks between tokens

Blanks may be put in wherever a token starts or ends, and at both ends of a text. The tokens stay what they are and
move on by the bytes that are put in before them, and the text is read as before: as the same selector, or with the same
fault at the same token (`Selector.ofText_spread`).

A text with more blanks in it has its lexemes in it still, but blanks may now follow blanks, which are one lexeme
together. `Lexeme.Loose` is a list of lexemes that admits this, and it has the tokens of the text that it makes up
(`tokenize_of_loose`).
-/

namespace LabelFilter

/-! ## Texts with gaps -/

namespace Text

/-- A text with characters put in: `gaps p` comes before what has `p` bytes of the text before it. The first of the
characters has `offset` bytes before it. -/
def spread (gaps : Nat → List Char) (offset : Nat) : List Char → List Char
  | [] => gaps offset
  | c :: cs => gaps offset ++ c :: spread gaps (offset + c.utf8Size) cs

/-- The bytes that are put in at positions before `p`. -/
def inserted (gaps : Nat → List Char) (p : Nat) : Nat := byteLength ((List.range p).flatMap gaps)

/-- Where that which stands at a position of the text comes to stand: behind all that is put in up to there. -/
def moved (gaps : Nat → List Char) (p : Nat) : Nat := p + inserted gaps (p + 1)

variable {gaps : Nat → List Char}

theorem inserted_succ (p : Nat) : inserted gaps (p + 1) = inserted gaps p + byteLength (gaps p) := by
  simp [inserted, List.range_succ]

/-- Nothing is put in between two positions. -/
def Unbroken (gaps : Nat → List Char) (first last : Nat) : Prop := ∀ p, first < p → p < last → gaps p = []

/-- Positions with nothing put in between them move on alike. -/
theorem inserted_of_unbroken {first last : Nat} (h : Unbroken gaps first last) (hlt : first < last) :
    inserted gaps last = inserted gaps (first + 1) := by
  induction last with
  | zero => omega
  | succ last ih =>
    rcases Nat.lt_or_eq_of_le (Nat.le_of_lt_succ hlt) with hlt | rfl
    · have hnone : gaps last = [] := h last hlt (Nat.lt_succ_self last)
      rw [inserted_succ, hnone, ih (fun p hp hp' => h p hp (by omega)) hlt]
      rfl
    · rfl

/-- A piece with nothing put in inside it stays in one piece. -/
theorem spread_append {cs : List Char} (hcs : cs ≠ []) {offset : Nat} (rest : List Char)
    (h : Unbroken gaps offset (offset + byteLength cs)) :
    spread gaps offset (cs ++ rest) = gaps offset ++ (cs ++ spread gaps (offset + byteLength cs) rest) := by
  induction cs generalizing offset with
  | nil => exact absurd rfl hcs
  | cons c cs ih =>
    rw [byteLength, ← Nat.add_assoc] at h ⊢
    rw [List.cons_append, spread]
    cases cs with
    | nil => rfl
    | cons d ds =>
      -- nothing comes between the two characters
      have hc : 0 < c.utf8Size := c.utf8Size_pos
      have hd : 0 < d.utf8Size := d.utf8Size_pos
      have hnone : gaps (offset + c.utf8Size) = [] := h _ (by omega) (by rw [byteLength]; omega)
      have hlater := ih (List.cons_ne_nil d ds) fun p hp hp' => h p (by omega) hp'
      rw [hlater, hnone]
      rfl

end Text

open Text

/-- The text with gaps. -/
def spreadText (gaps : Nat → List Char) (text : String) : String := String.ofList (spread gaps 0 text.toList)

/-- The token, where it comes to stand. -/
def Token.moved (gaps : Nat → List Char) (t : Token) : Token := { t with offset := Text.moved gaps t.offset }

@[simp] theorem Token.terminal_moved (gaps : Nat → List Char) (t : Token) : (t.moved gaps).terminal = t.terminal := rfl

/-- The symbol, where it comes to stand. -/
def UnexpectedSymbol.moved (gaps : Nat → List Char) (e : UnexpectedSymbol) : UnexpectedSymbol :=
  { e with offset := Text.moved gaps e.offset }

namespace Lexeme

/-! ## Boundaries of lexemes -/

/-- A lexeme ends at the position, or the first of them starts there. -/
def Boundary (offset : Nat) (ls : List Lexeme) (p : Nat) : Prop :=
  ∃ us vs, ls = us ++ vs ∧ p = offset + byteLength (chars us)

/-- Beyond the first position, nothing is put in but at boundaries. -/
def Fits (gaps : Nat → List Char) (offset : Nat) (ls : List Lexeme) : Prop :=
  ∀ p, offset < p → gaps p ≠ [] → Boundary offset ls p

/-- A token of the text starts or ends at the position. -/
def TokenEdge (text : String) (p : Nat) : Prop :=
  ∃ before l after, (split text.toList).1 = before ++ l :: after ∧ l.kind ≠ .blank ∧
    (p = byteLength (chars before) ∨ p = byteLength (chars before) + byteLength l.text)

variable {gaps : Nat → List Char} {offset : Nat} {l : Lexeme} {ls : List Lexeme}

theorem Boundary.le {p : Nat} (h : Boundary offset ls p) : offset ≤ p := by
  obtain ⟨us, vs, _, rfl⟩ := h
  exact Nat.le_add_right _ _

/-- A boundary beyond the first position is one from the end of the first lexeme on. -/
theorem Boundary.tail {p : Nat} (h : Boundary offset (l :: ls) p) (hlt : offset < p) :
    Boundary (offset + byteLength l.text) ls p := by
  obtain ⟨us, vs, hls, rfl⟩ := h
  cases us with
  | nil => exact absurd hlt (Nat.lt_irrefl offset)
  | cons u us =>
    obtain ⟨rfl, rfl⟩ := List.cons.inj hls
    exact ⟨us, vs, rfl, by rw [chars_cons, byteLength_append, Nat.add_assoc]⟩

/-- Both ends of a token are boundaries, and so are both ends of the text. -/
theorem Boundary.of_edge {text : String} (hls : split text.toList = (ls, [])) (htext : text.toList = chars ls) {p : Nat}
    (h : p = 0 ∨ p = byteLength text.toList ∨ TokenEdge text p) : Boundary 0 ls p := by
  rcases h with rfl | rfl | ⟨before, l, after, hsplit, _, hp⟩
  · exact ⟨[], ls, rfl, rfl⟩
  · exact ⟨ls, [], (List.append_nil ls).symm, by rw [htext, Nat.zero_add]⟩
  · rw [hls] at hsplit
    rcases hp with rfl | rfl
    · exact ⟨before, l :: after, hsplit, (Nat.zero_add _).symm⟩
    · exact ⟨before ++ [l], after, hsplit.trans (List.append_cons before l after), by simp⟩

/-- Nothing is put in inside a lexeme. -/
theorem Fits.unbroken (h : Fits gaps offset (l :: ls)) : Unbroken gaps offset (offset + byteLength l.text) := by
  intro p hlt hp
  refine Decidable.byContradiction fun hne => ?_
  have hle := ((h p hlt hne).tail hlt).le
  omega

theorem Fits.tail (h : Fits gaps offset (l :: ls)) : Fits gaps (offset + byteLength l.text) ls := by
  intro p hlt hne
  have hlt : offset < p := by omega
  exact (h p hlt hne).tail hlt

/-- A lexeme moves on as a whole. -/
theorem Fits.moved_add (h : Fits gaps offset (l :: ls)) (hne : l.text ≠ []) :
    moved gaps offset + byteLength l.text =
      offset + byteLength l.text + inserted gaps (offset + byteLength l.text) := by
  have hpos : 0 < byteLength l.text := byteLength_pos hne
  rw [inserted_of_unbroken h.unbroken (by omega), moved]
  omega

/-! ## Lexemes with gaps -/

/-- Each of the blanks as a lexeme. -/
def blanks (cs : List Char) : List Lexeme := cs.map fun c => ⟨.blank, [c]⟩

/-- The lexemes with blanks put in between them. -/
def spread (gaps : Nat → List Char) (offset : Nat) : List Lexeme → List Lexeme
  | [] => blanks (gaps offset)
  | l :: ls => blanks (gaps offset) ++ l :: spread gaps (offset + byteLength l.text) ls

theorem chars_blanks (cs : List Char) : chars (blanks cs) = cs := by
  simp [chars, blanks, List.flatMap_map]

theorem place_blanks_append (cs : List Char) (offset : Nat) (ls : List Lexeme) :
    place offset (blanks cs ++ ls) = place (offset + byteLength cs) ls := by
  induction cs generalizing offset with
  | nil => rfl
  | cons c cs ih =>
    have hstep : place offset (blanks (c :: cs) ++ ls) = place (offset + c.utf8Size) (blanks cs ++ ls) := rfl
    rw [hstep, ih, byteLength, Nat.add_assoc]

/-- They make up the text with the gaps. -/
theorem chars_spread (hne : ∀ l ∈ ls, l.text ≠ []) (h : Fits gaps offset ls) :
    chars (spread gaps offset ls) = Text.spread gaps offset (chars ls) := by
  induction ls generalizing offset with
  | nil => exact chars_blanks _
  | cons l ls ih =>
    obtain ⟨hl, hne⟩ := List.forall_mem_cons.mp hne
    rw [spread, chars_append, chars_blanks, chars_cons, chars_cons, ih hne h.tail,
      Text.spread_append hl (chars ls) h.unbroken]

/-- The end of the text moves on by all that is put in. -/
theorem byteLength_spread (hne : ∀ l ∈ ls, l.text ≠ []) (h : Fits gaps offset ls) :
    offset + inserted gaps offset + byteLength (chars (spread gaps offset ls)) =
      moved gaps (offset + byteLength (chars ls)) := by
  induction ls generalizing offset with
  | nil =>
    have hend : byteLength (chars []) = 0 := rfl
    rw [spread, chars_blanks, moved, hend, Nat.add_zero, inserted_succ, Nat.add_assoc]
  | cons l ls ih =>
    obtain ⟨hl, hne⟩ := List.forall_mem_cons.mp hne
    have hlater := ih hne h.tail
    have hnext := h.moved_add hl
    rw [spread, chars_append, chars_blanks, chars_cons, chars_cons, byteLength_append, byteLength_append,
      byteLength_append, ← Nat.add_assoc offset, ← hlater, ← hnext, moved, inserted_succ]
    omega

/-- The tokens are those of the text, moved on. -/
theorem place_spread (hne : ∀ l ∈ ls, l.text ≠ []) (h : Fits gaps offset ls) :
    place (offset + inserted gaps offset) (spread gaps offset ls) = (place offset ls).map (Token.moved gaps) := by
  induction ls generalizing offset with
  | nil =>
    have hnone := place_blanks_append (gaps offset) (offset + inserted gaps offset) []
    rwa [List.append_nil] at hnone
  | cons l ls ih =>
    obtain ⟨hl, hne⟩ := List.forall_mem_cons.mp hne
    have hhere : offset + inserted gaps offset + byteLength (gaps offset) = moved gaps offset := by
      rw [moved, inserted_succ, Nat.add_assoc]
    have hlater := ih hne h.tail
    rw [← h.moved_add hl] at hlater
    rw [spread, place_blanks_append, hhere]
    obtain ⟨kind, text⟩ := l
    cases kind
    -- blanks are no token
    case blank => exact hlater
    all_goals exact congrArg _ hlater

/-! ## Blanks after blanks -/

/-- The lexemes follow one another where each of them ends, but blanks may follow blanks. -/
def Loose : List Lexeme → Prop
  | [] => True
  | l :: ls => l.Proper ∧ (l.kind ≠ .blank → l.EndsBefore (chars ls)) ∧ Loose ls

theorem loose_blanks_append {cs : List Char} (hblank : ∀ c ∈ cs, isBlank c) (h : Loose ls) :
    Loose (blanks cs ++ ls) := by
  induction cs with
  | nil => exact h
  | cons c cs ih =>
    obtain ⟨hc, hblank⟩ := List.forall_mem_cons.mp hblank
    refine ⟨.blanks (List.cons_ne_nil c []) (fun d hd => ?_), fun hno => absurd rfl hno, ih hblank⟩
    rwa [List.mem_singleton.mp hd]

/-- A token ends before a blank. -/
theorem endsBefore_blank {c : Char} (hc : isBlank c) (hl : l.kind ≠ .blank) (rest : List Char) :
    l.EndsBefore (c :: rest) := by
  have hlabel : isLabelChar c = false := by simp [isLabelChar, hc]
  have hequals : c ≠ '=' := fun h => not_mem_reserved_of_isBlank hc (by rw [h]; decide)
  exact endsBefore_of_not_isLabelChar hlabel hequals (fun h => absurd h hl) rest

/-- A token ends before what follows it, and so it does with blanks in between. -/
theorem endsBefore_spread (hblank : ∀ p, ∀ c ∈ gaps p, isBlank c) (hl : l.kind ≠ .blank)
    (h : l.EndsBefore (chars ls)) (hne : ∀ m ∈ ls, m.text ≠ []) :
    l.EndsBefore (chars (spread gaps offset ls)) := by
  have hchars : ∃ rest, chars (spread gaps offset ls) = gaps offset ++ rest ∧ l.EndsBefore rest := by
    cases ls with
    | nil => exact ⟨[], by rw [spread, chars_blanks, List.append_nil], EndsBefore.nil l⟩
    | cons m ms =>
      have hm : m.text ≠ [] := hne m List.mem_cons_self
      rw [chars_cons, endsBefore_append hm] at h
      rw [spread, chars_append, chars_blanks, chars_cons]
      exact ⟨_, rfl, (endsBefore_append hm _).mpr h⟩
  obtain ⟨rest, hchars, hrest⟩ := hchars
  rw [hchars]
  cases hgap : gaps offset with
  | nil => exact hrest
  | cons c cs => exact endsBefore_blank (hblank offset c (by rw [hgap]; exact List.mem_cons_self)) hl _

theorem loose_spread (hblank : ∀ p, ∀ c ∈ gaps p, isBlank c) (h : Chain ls []) (offset : Nat) :
    Loose (spread gaps offset ls) := by
  induction ls generalizing offset with
  | nil =>
    have hblanks : Loose (blanks (gaps offset) ++ []) := loose_blanks_append (hblank offset) trivial
    rwa [List.append_nil] at hblanks
  | cons l ls ih =>
    obtain ⟨hproper, hends, hchain⟩ := h
    rw [List.append_nil] at hends
    refine loose_blanks_append (hblank offset) ⟨hproper, fun hl => ?_, ih hchain _⟩
    exact endsBefore_spread hblank hl hends hchain.text_ne_nil

/-- Blanks end before what is no blank. -/
theorem Proper.blank_endsBefore (h : l.Proper) (hl : l.kind ≠ .blank) (taken rest : List Char) :
    EndsBefore ⟨.blank, taken⟩ (l.text ++ rest) := by
  have hpunctuation : ∀ c ∈ reserved, ∀ cs, EndsBefore ⟨.blank, taken⟩ (c :: cs) := by
    intro c hc cs
    refine endsBefore_cons.mpr (Bool.eq_false_iff.mpr fun hno => ?_)
    exact not_mem_reserved_of_isBlank hno hc
  cases h with
  | blanks => exact absurd rfl hl
  | word hword => exact endsBefore_word (by simp) hword rest
  | _ => exact hpunctuation _ (by decide) _

theorem Proper.eq_blank (h : l.Proper) (hl : l.kind = .blank) :
    ∃ taken, taken ≠ [] ∧ (∀ c ∈ taken, isBlank c) ∧ l = ⟨.blank, taken⟩ := by
  cases h with
  | blanks hne hblank => exact ⟨_, hne, hblank, rfl⟩
  | @word word _ => exact absurd hl (wordKind_ne_blank word)
  | _ => cases hl

/-- Blanks in front of a segmentation are a lexeme of their own, or part of the blanks that it begins with. -/
theorem exists_chain_blank {taken : List Char} {ms : List Lexeme} (hne : taken ≠ []) (hblank : ∀ c ∈ taken, isBlank c)
    (h : Chain ms []) :
    ∃ ns, Chain ns [] ∧ chars ns = taken ++ chars ms ∧
      ∀ offset, place offset ns = place offset (⟨.blank, taken⟩ :: ms) := by
  have hproper : Proper ⟨.blank, taken⟩ := .blanks hne hblank
  cases ms with
  | nil => exact ⟨[⟨.blank, taken⟩], ⟨hproper, EndsBefore.nil _, trivial⟩, rfl, fun _ => rfl⟩
  | cons m ms =>
    by_cases hm : m.kind = .blank
    case neg =>
      refine ⟨⟨.blank, taken⟩ :: m :: ms, ⟨hproper, ?_, h⟩, rfl, fun _ => rfl⟩
      rw [chars_cons, List.append_assoc]
      exact h.1.blank_endsBefore hm taken _
    case pos =>
      -- the blanks run on into those that come next
      obtain ⟨hmproper, hmends, hchain⟩ := h
      obtain ⟨more, _, hmore, rfl⟩ := hmproper.eq_blank hm
      have hboth : Proper ⟨.blank, taken ++ more⟩ :=
        .blanks (List.append_ne_nil_of_left_ne_nil hne more) (List.forall_mem_append.mpr ⟨hblank, hmore⟩)
      refine ⟨⟨.blank, taken ++ more⟩ :: ms, ⟨hboth, hmends, hchain⟩, ?_, fun offset => ?_⟩
      · rw [chars_cons, chars_cons, List.append_assoc]
      · simp only [place, byteLength_append, Nat.add_assoc]

/-- Blanks that follow one another are one lexeme, so there is a segmentation with the same tokens. -/
theorem exists_chain_of_loose (h : Loose ls) :
    ∃ ms, Chain ms [] ∧ chars ms = chars ls ∧ ∀ offset, place offset ms = place offset ls := by
  induction ls with
  | nil => exact ⟨[], trivial, rfl, fun _ => rfl⟩
  | cons l ls ih =>
    obtain ⟨hproper, hends, hloose⟩ := h
    obtain ⟨ms, hchain, hchars, hplace⟩ := ih hloose
    have hplaced : ∀ offset, place offset (l :: ms) = place offset (l :: ls) := fun offset => by
      simp only [place, hplace]
    by_cases hl : l.kind = .blank
    case neg =>
      refine ⟨l :: ms, ⟨hproper, ?_, hchain⟩, by rw [chars_cons, chars_cons, hchars], hplaced⟩
      rw [List.append_nil, hchars]
      exact hends hl
    case pos =>
      obtain ⟨taken, hne, hblank, rfl⟩ := hproper.eq_blank hl
      obtain ⟨ns, hns, hnschars, hnsplace⟩ := exists_chain_blank hne hblank hchain
      refine ⟨ns, hns, ?_, fun offset => (hnsplace offset).trans (hplaced offset)⟩
      rw [hnschars, hchars, chars_cons]

end Lexeme

/-- A list of lexemes that is loose has the tokens of the text that it makes up. -/
theorem tokenize_of_loose {text : String} {ls : List Lexeme} (htext : text.toList = Lexeme.chars ls)
    (h : Lexeme.Loose ls) : tokenize text = .ok (Lexeme.place 0 ls) := by
  obtain ⟨ms, hchain, hchars, hplace⟩ := Lexeme.exists_chain_of_loose h
  exact tokenize_eq_ok_iff.mpr ⟨ms, by rw [htext, hchars], hchain, (hplace 0).symm⟩

open Lexeme

/-- **Blanks between tokens only move them.** -/
theorem tokenize_spread {text : String} {ts : List Token} {gaps : Nat → List Char} (h : tokenize text = .ok ts)
    (hblank : ∀ p, ∀ c ∈ gaps p, isBlank c)
    (hgaps : ∀ p, gaps p ≠ [] → p = 0 ∨ p = byteLength text.toList ∨ TokenEdge text p) :
    tokenize (spreadText gaps text) = .ok (ts.map (Token.moved gaps)) ∧
      byteLength (spreadText gaps text).toList = Text.moved gaps (byteLength text.toList) := by
  obtain ⟨ls, hchars, hchain, rfl⟩ := tokenize_eq_ok_iff.mp h
  have hsplit : Lexeme.split text.toList = (ls, []) :=
    split_eq_iff.mpr ⟨by rw [hchars, List.append_nil], hchain, rfl⟩
  have hfits : Fits gaps 0 ls := fun p _ hp => Boundary.of_edge hsplit hchars (hgaps p hp)
  have htext : (spreadText gaps text).toList = chars (Lexeme.spread gaps 0 ls) := by
    rw [spreadText, String.toList_ofList, chars_spread hchain.text_ne_nil hfits, hchars]
  have hnone : inserted gaps 0 = 0 := rfl
  constructor
  · have hplace := place_spread hchain.text_ne_nil hfits
    rw [hnone] at hplace
    rw [← hplace]
    exact tokenize_of_loose htext (loose_spread hblank hchain 0)
  · have hlength := byteLength_spread hchain.text_ne_nil hfits
    rw [hnone, Nat.zero_add, Nat.zero_add, ← hchars] at hlength
    rw [htext, hlength]

namespace Selector

/-- Tokens that have moved on are read as before, with the fault moved on. -/
theorem ofTokens_moved (gaps : Nat → List Char) (ts : List Token) (length : Nat) :
    ofTokens (ts.map (Token.moved gaps)) (Text.moved gaps length) =
      (ofTokens ts length).mapError (UnexpectedSymbol.moved gaps) := by
  by_cases hts : ts = []
  · subst hts
    rfl
  · have hmoved : ts.map (Token.moved gaps) ≠ [] := fun h => hts (List.map_eq_nil_iff.mp h)
    rw [ofTokens_eq_run hts, ofTokens_eq_run hmoved, Grammar.run_map (Token.terminal_moved gaps)]
    cases hrun : Grammar.run .start ts with
    | ok ps => rfl
    | error s =>
      have hoffset : frontOffset (Text.moved gaps length) (s.rest.map (Token.moved gaps)) =
          Text.moved gaps (frontOffset length s.rest) := frontOffset_map (fun _ => rfl) length s.rest
      have hfront := Grammar.front_map (Token.terminal_moved gaps) s.rest
      have hfault : UnexpectedSymbol.mk (frontOffset (Text.moved gaps length) (s.rest.map (Token.moved gaps)))
          ((ts.map (Token.moved gaps)).length - (s.rest.map (Token.moved gaps)).length)
          (Grammar.front (s.rest.map (Token.moved gaps))) s.expected =
          UnexpectedSymbol.moved gaps
            ⟨frontOffset length s.rest, ts.length - s.rest.length, Grammar.front s.rest, s.expected⟩ := by
        rw [hoffset, hfront, List.length_map, List.length_map]
        rfl
      exact congrArg Except.error hfault

/-- **Blanks between tokens do not count.** Blanks that are put in at either end of a text or where one of its tokens
starts or ends leave the tokens as they are, behind more bytes, and the text is read as the same selector or refused for
the same symbol among the same tokens. -/
theorem ofText_spread {text : String} {ts : List Token} {gaps : Nat → List Char} (h : tokenize text = .ok ts)
    (hblank : ∀ p, ∀ c ∈ gaps p, isBlank c)
    (hgaps : ∀ p, gaps p ≠ [] → p = 0 ∨ p = byteLength text.toList ∨ TokenEdge text p) :
    tokenize (spreadText gaps text) =
      .ok (ts.map fun t => { t with offset := t.offset + inserted gaps (t.offset + 1) }) ∧
    (∀ s, ofText (spreadText gaps text) = .ok s ↔ ofText text = .ok s) ∧
    ∀ e, ofText text = .error e → ∃ offset position found expected,
      e = .unexpected ⟨offset, position, found, expected⟩ ∧
      ofText (spreadText gaps text) =
        .error (.unexpected ⟨offset + inserted gaps (offset + 1), position, found, expected⟩) := by
  obtain ⟨htokens, hlength⟩ := tokenize_spread h hblank hgaps
  have hread : ofText (spreadText gaps text) =
      ((ofTokens ts (byteLength text.toList)).mapError (UnexpectedSymbol.moved gaps)).mapError .unexpected := by
    rw [ofText_of_tokenize htokens, hlength, ofTokens_moved]
  rw [hread, ofText_of_tokenize h]
  refine ⟨htokens, fun s => ?_, fun e he => ?_⟩
  · cases ofTokens ts (byteLength text.toList) with
    | ok r => exact Iff.rfl
    | error u => exact ⟨nofun, nofun⟩
  · cases hts : ofTokens ts (byteLength text.toList) with
    | ok s => rw [hts] at he; cases he
    | error u =>
      rw [hts] at he
      cases he
      exact ⟨u.offset, u.position, u.found, u.expected, rfl, rfl⟩

/-- The lexemes of `é!=a b`, which has a name too many. -/
def nameTooMany : List Lexeme := [ofLabel "é", mark .differs, ofLabel "a", mark .blank, ofLabel "b"]

/-- Blanks for it: around the sign, before the blank that is there, and at the end. -/
def nameTooManyGaps : Nat → List Char
  | 2 => ['\t']
  | 4 => ['\u2003']
  | 5 => ['\n']
  | 7 => [' ', ' ']
  | _ => []

theorem ofText_spread_nameTooMany :
    ofText "é!=a b" = .error (.unexpected ⟨6, 3, .token .label, [.token .comma, .ending]⟩) ∧
    spreadText nameTooManyGaps "é!=a b" = "é\t!=\u2003a\n b  " ∧
    tokenize "é\t!=\u2003a\n b  " =
      .ok [⟨.label, some "é", 0⟩, ⟨.differs, none, 3⟩, ⟨.label, some "a", 8⟩, ⟨.label, some "b", 11⟩] ∧
    ofText "é\t!=\u2003a\n b  " = .error (.unexpected ⟨11, 3, .token .label, [.token .comma, .ending]⟩) := by
  have hchars : "é!=a b".toList = chars nameTooMany := by decide
  have hchain : Chain nameTooMany [] := by decide +kernel
  have htokens : tokenize "é!=a b" = .ok (place 0 nameTooMany) := tokenize_eq_ok_iff.mpr ⟨_, hchars, hchain, rfl⟩
  have hsplit : (split "é!=a b".toList).1 = nameTooMany := by
    rw [split_eq_iff.mpr ⟨hchars.trans (List.append_nil _).symm, hchain, rfl⟩]
  have hlength : byteLength "é!=a b".toList = 7 := by decide
  have hread : ofText "é!=a b" = .error (.unexpected ⟨6, 3, .token .label, [.token .comma, .ending]⟩) := by
    have hrun : Grammar.run .start (place 0 nameTooMany) =
        .error ⟨[⟨.label, some "b", 6⟩], [.token .comma, .ending]⟩ := rfl
    rw [ofText_of_tokenize htokens, ofTokens_of_run_eq_error _ (by decide) hrun]
    rfl
  have htext : spreadText nameTooManyGaps "é!=a b" = "é\t!=\u2003a\n b  " := by decide
  have hblank : ∀ p, ∀ c ∈ nameTooManyGaps p, isBlank c := by
    intro p
    refine List.all_eq_true.mp ?_
    unfold nameTooManyGaps
    split <;> rfl
  have hgaps : ∀ p, nameTooManyGaps p ≠ [] → p = 0 ∨ p = byteLength "é!=a b".toList ∨ TokenEdge "é!=a b" p := by
    intro p hp
    unfold nameTooManyGaps at hp
    split at hp
    case h_1 => exact .inr (.inr ⟨[ofLabel "é"], mark .differs, _, hsplit, by decide, .inl (by decide)⟩)
    case h_2 => exact .inr (.inr ⟨[ofLabel "é", mark .differs], ofLabel "a", _, hsplit, by decide, .inl (by decide)⟩)
    case h_3 => exact .inr (.inr ⟨[ofLabel "é", mark .differs], ofLabel "a", _, hsplit, by decide, .inr (by decide)⟩)
    case h_4 => exact .inr (.inl hlength.symm)
    case h_5 => exact absurd rfl hp
  obtain ⟨hmoved, _, hfault⟩ := ofText_spread htokens hblank hgaps
  obtain ⟨offset, position, found, expected, he, hspread⟩ := hfault _ hread
  cases he
  rw [htext] at hmoved hspread
  exact ⟨hread, htext, hmoved, hspread⟩

end Selector

end LabelFilter
