import LabelFilter.Token.Lexeme

/-!
# Segmentation of texts

`Lexeme.read?` takes as much as a lexeme can have: it reads a lexeme exactly if the text begins with it and does not
go on with it (`read?_eq_some_iff`). Hence the lexemes of a text are the only ones that make it up and of which none
goes on with the next (`split_eq_iff`).
-/

namespace LabelFilter

open Text

/-! ## Runs -/

/-- A run is the nonempty start of a text whose members all are of the class, up to the first that is not. -/
theorem run?_eq_some_iff {isMember : Char → Bool} {cs taken rest : List Char} :
    run? isMember cs = some (taken, rest) ↔
      cs = taken ++ rest ∧ taken ≠ [] ∧ (∀ c ∈ taken, isMember c) ∧ ∀ c ∈ rest.head?, isMember c = false := by
  constructor
  · intro h
    refine ⟨run?_append h, run?_ne_nil h, ?_⟩
    unfold run? at h
    split at h
    next => cases h
    next =>
      simp only [Option.some.injEq, Prod.mk.injEq] at h
      rw [← h.1, ← h.2]
      constructor
      · exact List.all_eq_true.mp List.all_takeWhile
      · intro c hc
        have hhead := List.head?_dropWhile_not isMember cs
        rw [Option.mem_def.mp hc] at hhead
        exact hhead
  · rintro ⟨rfl, hne, hmembers, hrest⟩
    have hstop : rest.takeWhile isMember = [] ∧ rest.dropWhile isMember = rest := by
      cases rest with
      | nil => exact ⟨rfl, rfl⟩
      | cons c rest =>
        have hc : ¬isMember c := by simp [hrest c rfl]
        exact ⟨List.takeWhile_cons_of_neg hc, List.dropWhile_cons_of_neg hc⟩
    obtain ⟨c, cs, rfl⟩ := List.exists_cons_of_ne_nil hne
    unfold run?
    rw [List.takeWhile_append_of_pos hmembers, List.dropWhile_append_of_pos hmembers, hstop.1, hstop.2,
      List.append_nil]

/-- There is no run where the text does not begin with a member of the class. -/
theorem run?_eq_none_iff {isMember : Char → Bool} {cs : List Char} :
    run? isMember cs = none ↔ ∀ c ∈ cs.head?, isMember c = false := by
  cases cs with
  | nil => simp [run?]
  | cons c cs =>
    cases h : isMember c <;> simp [run?, h]

/-- The characters are those of a label or a keyword. -/
def IsWord (cs : List Char) : Prop := cs ≠ [] ∧ ∀ c ∈ cs, isLabelChar c

/-- The labels are the words that are no keywords. -/
theorem isLabel_iff {text : String} :
    isLabel text ↔ IsWord text.toList ∧ Keyword.ofWord? text.toList = none := by
  have hword : word? text.toList = some (text.toList, []) ↔ IsWord text.toList := by
    unfold word?
    rw [run?_eq_some_iff, List.append_nil]
    simp [IsWord]
  unfold isLabel
  split
  next word h =>
    have htext : text.toList = word := by rw [run?_append h, List.append_nil]
    rw [← hword, htext, Option.isNone_iff_eq_none]
    exact ⟨fun hkeyword => ⟨htext ▸ h, hkeyword⟩, And.right⟩
  next h =>
    refine ⟨fun hfalse => absurd hfalse Bool.false_ne_true, fun hlabel => ?_⟩
    exact absurd (hword.mpr hlabel.1) (h text.toList)

namespace Lexeme

/-! ## One lexeme -/

/-- The text of the lexeme is one of its kind. -/
inductive Proper : Lexeme → Prop
  | blanks {taken : List Char} (ne_nil : taken ≠ []) (blank : ∀ c ∈ taken, isBlank c) : Proper ⟨.blank, taken⟩
  | word {word : List Char} (isWord : IsWord word) : Proper ⟨wordKind word, word⟩
  | opening : Proper ⟨.opening, ['(']⟩
  | closing : Proper ⟨.closing, [')']⟩
  | comma : Proper ⟨.comma, [',']⟩
  | differs : Proper ⟨.differs, ['!', '=']⟩
  | bang : Proper ⟨.bang, ['!']⟩
  | doubled : Proper ⟨.equals, ['=', '=']⟩
  | equals : Proper ⟨.equals, ['=']⟩

/-- The lexeme would be a longer one with the character after it. -/
def goesOn (l : Lexeme) (c : Char) : Bool :=
  match l.kind with
  | .blank => isBlank c
  | .isIn | .notIn | .label => isLabelChar c
  | .bang => c == '='
  | .equals => l.text == ['='] && c == '='
  | .opening | .closing | .differs | .comma => false

/-- The lexeme ends before the text. -/
def EndsBefore (l : Lexeme) (rest : List Char) : Prop := ∀ c ∈ rest.head?, l.goesOn c = false

theorem EndsBefore.nil (l : Lexeme) : l.EndsBefore [] := fun _ h => (nomatch h)

theorem endsBefore_cons {l : Lexeme} {c : Char} {rest : List Char} :
    l.EndsBefore (c :: rest) ↔ l.goesOn c = false := by
  simp [EndsBefore]

instance (l : Lexeme) : (rest : List Char) → Decidable (l.EndsBefore rest)
  | [] => isTrue (EndsBefore.nil l)
  | c :: _ => decidable_of_iff (l.goesOn c = false) endsBefore_cons.symm

theorem goesOn_word (word : List Char) : goesOn ⟨wordKind word, word⟩ = isLabelChar := by
  funext c
  unfold goesOn wordKind
  cases Keyword.ofWord? word with
  | none => rfl
  | some k => cases k <;> rfl

theorem wordKind_ne_blank (word : List Char) : wordKind word ≠ .blank := by
  unfold wordKind
  cases Keyword.ofWord? word with
  | none => decide
  | some k => cases k <;> decide

/-- Blanks are no punctuation. -/
theorem not_mem_reserved_of_isBlank {c : Char} (h : isBlank c) : c ∉ reserved := by
  have hreserved : reserved.all (fun c => !isBlank c) := by decide
  intro hc
  have hno := List.all_eq_true.mp hreserved c hc
  rw [h] at hno
  exact Bool.false_ne_true hno

theorem not_mem_reserved_of_isLabelChar {c : Char} (h : isLabelChar c) : c ∉ reserved := by
  simp only [isLabelChar, Bool.and_eq_true, Bool.not_eq_true', List.contains_eq_mem, decide_eq_false_iff_not] at h
  exact h.2

theorem isBlank_of_isLabelChar {c : Char} (h : isLabelChar c) : isBlank c = false := by
  simp only [isLabelChar, Bool.and_eq_true, Bool.not_eq_true'] at h
  exact h.1.1

/-- Every lexeme that is no word ends before a word. -/
theorem endsBefore_word {l : Lexeme} {word : List Char} (hl : l.kind ∉ [.isIn, .notIn, .label]) (hword : IsWord word)
    (rest : List Char) : l.EndsBefore (word ++ rest) := by
  obtain ⟨c, cs, rfl⟩ := List.exists_cons_of_ne_nil hword.1
  have hc : isLabelChar c := hword.2 c List.mem_cons_self
  have hequals : (c == '=') = false := beq_eq_false_iff_ne.mpr fun h => by
    subst h
    exact absurd hc (by decide)
  obtain ⟨kind, text⟩ := l
  apply endsBefore_cons.mpr
  cases kind
  case blank => exact isBlank_of_isLabelChar hc
  case bang => exact hequals
  case equals => simp [goesOn, hequals]
  case isIn | notIn | label => exact absurd (by simp) hl
  all_goals rfl

/-- A lexeme ends before a character that is in no label and doubles no sign, but blanks go on with blanks. -/
theorem endsBefore_of_not_isLabelChar {l : Lexeme} {c : Char} (hlabel : isLabelChar c = false) (hequals : c ≠ '=')
    (hblank : l.kind = .blank → isBlank c = false) (rest : List Char) : l.EndsBefore (c :: rest) := by
  have hsign : (c == '=') = false := beq_eq_false_iff_ne.mpr hequals
  obtain ⟨kind, text⟩ := l
  apply endsBefore_cons.mpr
  cases kind
  case blank => exact hblank rfl
  case isIn | notIn | label => exact hlabel
  case bang => exact hsign
  case equals => simp [goesOn, hsign]
  all_goals rfl

/-- What does not begin with punctuation is read by the class of its first character. -/
theorem read?_eq_readRun? {c : Char} {cs : List Char} (h : c ∉ reserved) : read? (c :: cs) = readRun? (c :: cs) := by
  unfold read?
  split
  case h_8 => rfl
  all_goals
    next heq =>
      cases heq
      exact absurd (by decide) h

theorem readRun?_of_blanks {taken rest : List Char} (hne : taken ≠ []) (hblank : ∀ c ∈ taken, isBlank c)
    (hrest : ∀ c ∈ rest.head?, isBlank c = false) : readRun? (taken ++ rest) = some (⟨.blank, taken⟩, rest) := by
  have h : blanks? (taken ++ rest) = some (taken, rest) := run?_eq_some_iff.mpr ⟨rfl, hne, hblank, hrest⟩
  simp only [readRun?, h]

theorem readRun?_of_word {word rest : List Char} (hword : IsWord word)
    (hrest : ∀ c ∈ rest.head?, isLabelChar c = false) :
    readRun? (word ++ rest) = some (⟨wordKind word, word⟩, rest) := by
  have hnone : blanks? (word ++ rest) = none := by
    obtain ⟨c, cs, rfl⟩ := List.exists_cons_of_ne_nil hword.1
    refine run?_eq_none_iff.mpr fun d hd => ?_
    rw [← Option.some.inj hd]
    exact isBlank_of_isLabelChar (hword.2 c List.mem_cons_self)
  have h : word? (word ++ rest) = some (word, rest) := run?_eq_some_iff.mpr ⟨rfl, hword.1, hword.2, hrest⟩
  simp only [readRun?, hnone, h]

/-- What `readRun?` reads is a proper lexeme that ends where the rest begins. -/
theorem proper_of_readRun? {cs rest : List Char} {l : Lexeme} (h : readRun? cs = some (l, rest)) :
    l.Proper ∧ l.EndsBefore rest := by
  unfold readRun? at h
  split at h
  next taken rest' hb =>
    simp only [Option.some.injEq, Prod.mk.injEq] at h
    obtain ⟨rfl, rfl⟩ := h
    obtain ⟨_, hne, hblank, hrest⟩ := run?_eq_some_iff.mp hb
    exact ⟨.blanks hne hblank, hrest⟩
  next word rest' _ hw =>
    simp only [Option.some.injEq, Prod.mk.injEq] at h
    obtain ⟨rfl, rfl⟩ := h
    obtain ⟨_, hne, hlabel, hrest⟩ := run?_eq_some_iff.mp hw
    refine ⟨.word ⟨hne, hlabel⟩, ?_⟩
    rwa [EndsBefore, goesOn_word]
  next => cases h

/-- What `read?` reads is a proper lexeme that ends where the rest begins. -/
theorem proper_of_read? {cs rest : List Char} {l : Lexeme} (h : read? cs = some (l, rest)) :
    l.Proper ∧ l.EndsBefore rest := by
  have plain : ∀ {kind : TokenKind} {text : List Char}, Proper ⟨kind, text⟩ → goesOn ⟨kind, text⟩ = (fun _ => false) →
      Proper ⟨kind, text⟩ ∧ EndsBefore ⟨kind, text⟩ rest := fun hproper hgoes =>
    ⟨hproper, fun c _ => congrFun hgoes c⟩
  unfold read? at h
  split at h
  case h_8 => exact proper_of_readRun? h
  all_goals
    simp only [Option.some.injEq, Prod.mk.injEq] at h
    obtain ⟨rfl, rfl⟩ := h
  case h_1 => exact plain .opening rfl
  case h_2 => exact plain .closing rfl
  case h_3 => exact plain .comma rfl
  case h_4 => exact plain .differs rfl
  case h_6 => exact plain .doubled rfl
  -- A single sign is read only after the doubled one has failed.
  case h_5 rest hne =>
    refine ⟨.bang, fun c hc => ?_⟩
    obtain ⟨_, rfl⟩ := List.head?_eq_some_iff.mp hc
    exact beq_eq_false_iff_ne.mpr fun hc => hne _ (by rw [hc])
  case h_7 rest hne =>
    refine ⟨.equals, fun c hc => ?_⟩
    obtain ⟨_, rfl⟩ := List.head?_eq_some_iff.mp hc
    exact beq_eq_false_iff_ne.mpr fun hc => hne _ (by rw [hc])

/-- A proper lexeme is read where it ends before the rest. -/
theorem read?_of_proper {l : Lexeme} {rest : List Char} (hproper : l.Proper) (hends : l.EndsBefore rest) :
    read? (l.text ++ rest) = some (l, rest) := by
  cases hproper with
  | @blanks taken hne hblank =>
    obtain ⟨c, cs, rfl⟩ := List.exists_cons_of_ne_nil hne
    have hc := not_mem_reserved_of_isBlank (hblank c List.mem_cons_self)
    exact (read?_eq_readRun? hc).trans (readRun?_of_blanks hne hblank hends)
  | @word word hword =>
    rw [EndsBefore, goesOn_word] at hends
    obtain ⟨c, cs, rfl⟩ := List.exists_cons_of_ne_nil hword.1
    have hc := not_mem_reserved_of_isLabelChar (hword.2 c List.mem_cons_self)
    exact (read?_eq_readRun? hc).trans (readRun?_of_word hword hends)
  | bang =>
    cases rest with
    | nil => rfl
    | cons c rest =>
      have hc : c ≠ '=' := beq_eq_false_iff_ne.mp (endsBefore_cons.mp hends)
      simp [read?, hc]
  | equals =>
    cases rest with
    | nil => rfl
    | cons c rest =>
      have hc : c ≠ '=' := beq_eq_false_iff_ne.mp (endsBefore_cons.mp hends)
      simp [read?, hc]
  | _ => rfl

/-- **The longest lexeme is read.** A lexeme is read exactly if the text begins with it and does not go on with it. -/
theorem read?_eq_some_iff {cs rest : List Char} {l : Lexeme} :
    read? cs = some (l, rest) ↔ cs = l.text ++ rest ∧ l.Proper ∧ l.EndsBefore rest := by
  constructor
  · exact fun h => ⟨(read?_append h).1, proper_of_read? h⟩
  · rintro ⟨rfl, hproper, hends⟩
    exact read?_of_proper hproper hends

/-- A lexeme is proper exactly if it is what its own text is read as. -/
theorem proper_iff_read? {l : Lexeme} : l.Proper ↔ read? l.text = some (l, []) := by
  rw [read?_eq_some_iff, List.append_nil]
  exact ⟨fun h => ⟨rfl, h, EndsBefore.nil l⟩, fun h => h.2.1⟩

instance (l : Lexeme) : Decidable l.Proper := decidable_of_iff _ proper_iff_read?.symm

/-! ## Lists of lexemes -/

/-- The lexemes follow one another, and the text the last of them, where each of them ends. -/
def Chain : List Lexeme → List Char → Prop
  | [], _ => True
  | l :: ls, left => l.Proper ∧ l.EndsBefore (chars ls ++ left) ∧ Chain ls left

instance decidableChain : (ls : List Lexeme) → (left : List Char) → Decidable (Chain ls left)
  | [], _ => isTrue trivial
  | _ :: ls, left =>
    have := decidableChain ls left
    inferInstanceAs (Decidable (_ ∧ _ ∧ Chain ls left))

theorem chain_cons {l : Lexeme} {ls : List Lexeme} {left : List Char} :
    Chain (l :: ls) left ↔ l.Proper ∧ l.EndsBefore (chars ls ++ left) ∧ Chain ls left := Iff.rfl

@[simp] theorem chars_nil : chars [] = [] := rfl

@[simp] theorem chars_cons (l : Lexeme) (ls : List Lexeme) : chars (l :: ls) = l.text ++ chars ls := rfl

@[simp] theorem chars_append (ls ms : List Lexeme) : chars (ls ++ ms) = chars ls ++ chars ms := List.flatMap_append

theorem chain_append {ls ms : List Lexeme} {left : List Char} :
    Chain (ls ++ ms) left ↔ Chain ls (chars ms ++ left) ∧ Chain ms left := by
  induction ls with
  | nil => simp [Chain]
  | cons l ls ih => simp only [List.cons_append, Chain, ih, chars_append, List.append_assoc, and_assoc]

/-- **The segmentation is unique.** The lexemes of a text are those that make it up and each end before the next, up to
where none can be read. -/
theorem split_eq_iff {cs left : List Char} {ls : List Lexeme} :
    split cs = (ls, left) ↔ cs = chars ls ++ left ∧ Chain ls left ∧ read? left = none := by
  constructor
  · intro h
    fun_induction split cs generalizing ls left with
    | case1 cs hnone =>
      cases h
      exact ⟨rfl, trivial, hnone⟩
    | case2 cs l rest hread _ ls' left' heq ih =>
      cases h
      obtain ⟨hcs, hproper, hends⟩ := read?_eq_some_iff.mp hread
      obtain ⟨hrest, hchain, hnone⟩ := ih heq
      subst hrest
      exact ⟨by rw [hcs, chars_cons, List.append_assoc], ⟨hproper, hends, hchain⟩, hnone⟩
  · rintro ⟨rfl, hchain, hnone⟩
    induction ls with
    | nil =>
      rw [split.eq_def]
      split
      next => rfl
      next l rest hread => cases hnone.symm.trans hread
    | cons l ls ih =>
      obtain ⟨hproper, hends, hchain⟩ := hchain
      have hread : read? (chars (l :: ls) ++ left) = some (l, chars ls ++ left) := by
        rw [chars_cons, List.append_assoc]
        exact read?_of_proper hproper hends
      rw [split.eq_def]
      split
      next hnone => cases hnone.symm.trans hread
      next l' rest hread' =>
        cases hread.symm.trans hread'
        rw [ih hchain]

end Lexeme

end LabelFilter
