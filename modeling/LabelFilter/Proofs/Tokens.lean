import LabelFilter.Proofs.Spacing

/-!
# The tokens of a text

The tokens of a text are its only segmentation (`tokenize_eq_ok_iff_segments`). `Segments` says what a segmentation is,
with no word about how a text is read: the tokens stand one behind the other with only blanks between them, a word is
never cut, and a sign is the longest that can stand there.

The lexemes of a text are a segmentation by the tokens that they have (`Lexeme.segments_of_chain`), and the tokens of a
segmentation are those of a list of lexemes (`Segments.exists_loose`).
-/

namespace LabelFilter

open Text

/-! ## Segmentations -/

/-- A token of the kind is written with these characters. -/
inductive Writes : TokenKind → List Char → Prop
  | opening : Writes .opening ['(']
  | closing : Writes .closing [')']
  | comma : Writes .comma [',']
  | bang : Writes .bang ['!']
  | differs : Writes .differs ['!', '=']
  | equals : Writes .equals ['=']
  | doubled : Writes .equals ['=', '=']
  | isIn : Writes .isIn "in".toList
  | notIn : Writes .notIn "notin".toList
  | label {word : List Char} (isWord : IsWord word) (ne_isIn : word ≠ "in".toList) (ne_notIn : word ≠ "notin".toList) :
      Writes .label word

/-- The token is written with these characters between the others. -/
structure Stands (t : Token) (before written after : List Char) : Prop where
  offset : t.offset = byteLength before
  writes : Writes t.kind written
  solid : ∀ c ∈ written, isBlank c = false
  /-- A label carries what is written, and nothing else carries text. -/
  text : t.text = if t.kind = .label then some (String.ofList written) else none
  /-- A word goes on neither before nor after. -/
  whole : t.kind ∈ [.isIn, .notIn, .label] →
    (∀ c ∈ before.getLast?, isLabelChar c = false) ∧ ∀ c ∈ after.head?, isLabelChar c = false
  /-- A sign would not be a longer one with what comes after. -/
  longest : t.kind = .bang ∨ t.kind = .equals ∧ written = ['='] → after.head? ≠ some '='

/-- The tokens stand in the rest of a text behind what comes before it, with only blanks between them and at both
ends. -/
inductive Segments : List Char → List Char → List Token → Prop
  | blanks {before rest : List Char} (blank : ∀ c ∈ rest, isBlank c) : Segments before rest []
  | token {before gap written rest : List Char} {t : Token} {ts : List Token} (blank : ∀ c ∈ gap, isBlank c)
      (stands : Stands t (before ++ gap) written rest) (later : Segments (before ++ gap ++ written) rest ts) :
      Segments before (gap ++ (written ++ rest)) (t :: ts)

namespace Segments

variable {before rest : List Char} {ts : List Token}

/-- Blanks may come first. -/
theorem blanks_append {taken : List Char} (hblank : ∀ c ∈ taken, isBlank c) (h : Segments (before ++ taken) rest ts) :
    Segments before (taken ++ rest) ts := by
  cases h with
  | blanks hrest => exact .blanks (List.forall_mem_append.mpr ⟨hblank, hrest⟩)
  | token hgap hstands hlater =>
    rw [← List.append_assoc]
    rw [List.append_assoc before] at hstands hlater
    exact .token (List.forall_mem_append.mpr ⟨hblank, hgap⟩) hstands hlater

/-- A token may come first. -/
theorem token_append {t : Token} {written : List Char} (hstands : Stands t before written rest)
    (h : Segments (before ++ written) rest ts) : Segments before (written ++ rest) (t :: ts) := by
  have hnone : ∀ c ∈ ([] : List Char), isBlank c := fun _ hc => (nomatch hc)
  rw [← List.append_nil before] at hstands h
  exact .token hnone hstands h

end Segments

namespace Lexeme

/-! ## Lexemes and what is written -/

theorem wordKind_eq_label {word : List Char} (hin : word ≠ "in".toList) (hnot : word ≠ "notin".toList) :
    wordKind word = .label := by
  have hnone : Keyword.ofWord? word = none := by
    rw [Keyword.ofWord?, if_neg (show word ≠ Keyword.notIn.spelling.toList from hnot),
      if_neg (show word ≠ Keyword.isIn.spelling.toList from hin)]
  rw [wordKind, hnone]

theorem Proper.writes {l : Lexeme} (h : l.Proper) (hl : l.kind ≠ .blank) : Writes l.kind l.text := by
  cases h with
  | blanks => exact absurd rfl hl
  | @word word hword =>
    show Writes (wordKind word) word
    by_cases hin : word = "in".toList
    · subst hin
      exact .isIn
    by_cases hnot : word = "notin".toList
    · subst hnot
      exact .notIn
    rw [wordKind_eq_label hin hnot]
    exact .label hword hin hnot
  | opening => exact .opening
  | closing => exact .closing
  | comma => exact .comma
  | differs => exact .differs
  | bang => exact .bang
  | doubled => exact .doubled
  | equals => exact .equals

end Lexeme

namespace Writes

variable {kind : TokenKind} {written : List Char}

theorem proper (h : Writes kind written) : Lexeme.Proper ⟨kind, written⟩ := by
  cases h with
  | label hword hin hnot =>
    rw [← Lexeme.wordKind_eq_label hin hnot]
    exact .word hword
  | _ => decide +kernel

theorem kind_ne_blank (h : Writes kind written) : kind ≠ .blank := by
  cases h <;> decide

/-- No blank is part of a token. -/
theorem solid (h : Writes kind written) : ∀ c ∈ written, isBlank c = false := by
  have hall : written.all fun c => !isBlank c := by
    cases h with
    | label hword => exact List.all_eq_true.mpr fun c hc => by rw [Lexeme.isBlank_of_isLabelChar (hword.2 c hc)]; rfl
    | _ => decide
  intro c hc
  have hno := List.all_eq_true.mp hall c hc
  rwa [Bool.not_eq_true'] at hno

end Writes

namespace Lexeme

variable {l : Lexeme} {before rest : List Char}

/-! ## Tokens in their places -/

theorem place_cons (offset : Nat) (l : Lexeme) (ls : List Lexeme) :
    place offset (l :: ls) = place offset [l] ++ place (offset + byteLength l.text) ls := by
  have hcons := place_append offset [l] ls
  rwa [chars_cons, chars_nil, List.append_nil] at hcons

theorem place_of_blank (offset : Nat) (h : l.kind = .blank) : place offset [l] = [] := by
  rw [place, h]
  rfl

/-- A lexeme that is no blank has a token of its kind. -/
theorem place_of_not_blank (offset : Nat) (h : l.kind ≠ .blank) :
    place offset [l] = [⟨l.kind, if l.kind = .label then some (String.ofList l.text) else none, offset⟩] := by
  obtain ⟨kind, text⟩ := l
  cases kind
  case blank => exact absurd rfl h
  all_goals rfl

/-! ## From lexemes to segmentations -/

/-- No word runs on from the one text into the other. -/
def Parted (before rest : List Char) : Prop :=
  ∀ c ∈ before.getLast?, ∀ d ∈ rest.head?, isLabelChar c → isLabelChar d = false

/-- Where a lexeme ends, no word runs on. -/
theorem parted_of_endsBefore (hproper : l.Proper) (hends : l.EndsBefore rest) (before : List Char) :
    Parted (before ++ l.text) rest := by
  intro c hc d hd hlabel
  rw [List.getLast?_append, List.getLast?_eq_some_getLast hproper.text_ne_nil, Option.some_or] at hc
  have hmem : c ∈ l.text := Option.some.inj hc ▸ List.getLast_mem _
  have hgoes : l.goesOn d = false := hends d hd
  cases hproper with
  | blanks _ hblank =>
    have hno := isBlank_of_isLabelChar hlabel
    rw [hblank c hmem] at hno
    cases hno
  | word hword => rwa [goesOn_word] at hgoes
  | _ =>
    refine absurd (List.contains_iff_mem.mp (List.all_eq_true.mp ?_ c hmem)) (not_mem_reserved_of_isLabelChar hlabel)
    decide

/-- A word is a word by its kind. -/
theorem Proper.isWord (h : l.Proper) (hl : l.kind ∈ [.isIn, .notIn, .label]) :
    IsWord l.text ∧ l.goesOn = isLabelChar := by
  cases h with
  | word hword => exact ⟨hword, goesOn_word _⟩
  | blanks => exact absurd hl (by simp)
  | _ => exact absurd hl (by decide)

/-- A lexeme that is no blank stands where the text before it and the text after it do not go on with it. -/
theorem stands_of_proper (hproper : l.Proper) (hl : l.kind ≠ .blank) (hends : l.EndsBefore rest)
    (hparted : Parted before (l.text ++ rest)) :
    Stands ⟨l.kind, if l.kind = .label then some (String.ofList l.text) else none, byteLength before⟩
      before l.text rest := by
  refine ⟨rfl, hproper.writes hl, (hproper.writes hl).solid, rfl, ?_, ?_⟩
  case refine_1 =>
    intro hkind
    obtain ⟨hword, hgoes⟩ := hproper.isWord hkind
    obtain ⟨d, ds, htext⟩ := List.exists_cons_of_ne_nil hword.1
    constructor
    · intro c hc
      refine Bool.eq_false_iff.mpr fun hlabel => ?_
      have hno : isLabelChar d = false := hparted c hc d (by rw [htext]; rfl) hlabel
      rw [hword.2 d (by rw [htext]; exact List.mem_cons_self)] at hno
      cases hno
    · rwa [EndsBefore, hgoes] at hends
  case refine_2 =>
    intro hsign hequals
    have hgoes := hends '=' hequals
    rcases hsign with hkind | ⟨hkind, htext⟩
    · have hbang : l.kind = .bang := hkind
      rw [goesOn, hbang] at hgoes
      cases hgoes
    · have hsign : l.kind = .equals := hkind
      rw [goesOn, hsign, htext] at hgoes
      cases hgoes

/-- Lexemes are segments by the tokens that they have. -/
theorem segments_of_chain {ls : List Lexeme} (hchain : Chain ls []) (hparted : Parted before (chars ls)) :
    Segments before (chars ls) (place (byteLength before) ls) := by
  induction ls generalizing before with
  | nil => exact .blanks fun _ hc => (nomatch hc)
  | cons l ls ih =>
    obtain ⟨hproper, hends, hchain⟩ := hchain
    rw [List.append_nil] at hends
    have hlater := ih hchain (parted_of_endsBefore hproper hends before)
    rw [byteLength_append] at hlater
    rw [place_cons, chars_cons]
    by_cases hl : l.kind = .blank
    case pos =>
      obtain ⟨taken, _, hblank, rfl⟩ := hproper.eq_blank hl
      rw [place_of_blank _ hl, List.nil_append]
      exact hlater.blanks_append hblank
    case neg =>
      rw [place_of_not_blank _ hl]
      exact hlater.token_append (stands_of_proper hproper hl hends hparted)

end Lexeme

/-! ## From segmentations to lexemes -/

/-- What is written of a token ends where it stands. -/
theorem Stands.endsBefore {t : Token} {before written after : List Char} (h : Stands t before written after) :
    Lexeme.EndsBefore ⟨t.kind, written⟩ after := by
  intro c hc
  have hwrites := h.writes
  obtain ⟨kind, text, offset⟩ := t
  cases hwrites with
  | bang => exact beq_eq_false_iff_ne.mpr fun hno => h.longest (.inl rfl) (hno ▸ hc)
  | equals => exact beq_eq_false_iff_ne.mpr fun hno => h.longest (.inr ⟨rfl, rfl⟩) (hno ▸ hc)
  | isIn | notIn | label => exact (h.whole (by simp)).2 c hc
  | _ => rfl

/-- The token is the one that its lexeme has where it stands. -/
theorem Stands.place {t : Token} {before written after : List Char} (h : Stands t before written after) :
    Lexeme.place (byteLength before) [⟨t.kind, written⟩] = [t] := by
  rw [Lexeme.place_of_not_blank _ h.writes.kind_ne_blank, ← h.text, ← h.offset]

/-- Segments are made up of lexemes that have the tokens. -/
theorem Segments.exists_loose {before rest : List Char} {ts : List Token} (h : Segments before rest ts) :
    ∃ ls, Lexeme.Loose ls ∧ Lexeme.chars ls = rest ∧ Lexeme.place (byteLength before) ls = ts := by
  induction h with
  | @blanks before rest hblank =>
    have hloose : Lexeme.Loose (Lexeme.blanks rest ++ []) := Lexeme.loose_blanks_append hblank trivial
    have hplace := Lexeme.place_blanks_append rest (byteLength before) []
    rw [List.append_nil] at hloose hplace
    exact ⟨Lexeme.blanks rest, hloose, Lexeme.chars_blanks rest, hplace⟩
  | @token before gap written rest t ts hgap hstands _ ih =>
    obtain ⟨ls, hloose, rfl, rfl⟩ := ih
    refine ⟨Lexeme.blanks gap ++ ⟨t.kind, written⟩ :: ls, ?_, ?_, ?_⟩
    · exact Lexeme.loose_blanks_append hgap ⟨hstands.writes.proper, fun _ => hstands.endsBefore, hloose⟩
    · rw [Lexeme.chars_append, Lexeme.chars_blanks, Lexeme.chars_cons]
    · rw [Lexeme.place_blanks_append, Lexeme.place_cons, ← byteLength_append, hstands.place, ← byteLength_append]
      rfl

/-! ## The tokens -/

theorem segments_of_tokenize {text : String} {ts : List Token} (h : tokenize text = .ok ts) :
    Segments [] text.toList ts := by
  obtain ⟨ls, hchars, hchain, rfl⟩ := tokenize_eq_ok_iff.mp h
  have hparted : Lexeme.Parted [] (Lexeme.chars ls) := fun _ hc => (nomatch hc)
  rw [hchars]
  exact Lexeme.segments_of_chain hchain hparted

theorem tokenize_of_segments {text : String} {ts : List Token} (h : Segments [] text.toList ts) :
    tokenize text = .ok ts := by
  obtain ⟨ls, hloose, hchars, rfl⟩ := h.exists_loose
  exact tokenize_of_loose hchars.symm hloose

/-- **The tokens of a text are its only segmentation.** A text has tokens exactly if it has a segmentation, and they are
that segmentation. There is no other. -/
theorem tokenize_eq_ok_iff_segments (text : String) :
    (∀ ts, tokenize text = .ok ts ↔ Segments [] text.toList ts) ∧
    ∀ ts us, Segments [] text.toList ts → Segments [] text.toList us → ts = us := by
  constructor
  · intro ts
    exact ⟨segments_of_tokenize, tokenize_of_segments⟩
  · intro ts us hts hus
    exact Except.ok.inj ((tokenize_of_segments hts).symm.trans (tokenize_of_segments hus))

/-- Of three signs the first two are one, and `notinx` is no keyword. -/
theorem segments_threeSigns :
    Segments [] "é===in notinx!".toList
      [⟨.label, some "é", 0⟩, ⟨.equals, none, 2⟩, ⟨.equals, none, 4⟩, ⟨.isIn, none, 5⟩, ⟨.label, some "notinx", 8⟩,
        ⟨.bang, none, 14⟩] := by
  have hchars : "é===in notinx!".toList = Lexeme.chars [Lexeme.ofLabel "é", ⟨.equals, ['=', '=']⟩, ⟨.equals, ['=']⟩,
    Lexeme.mark .isIn, Lexeme.mark .blank, Lexeme.ofLabel "notinx", Lexeme.mark .bang] := by decide
  refine ((tokenize_eq_ok_iff_segments _).1 _).mp (tokenize_eq_ok_iff.mpr ⟨_, hchars, ?_, rfl⟩)
  decide +kernel

end LabelFilter
