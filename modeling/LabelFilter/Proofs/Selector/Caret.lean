import LabelFilter.Proofs.Selector.Pinpointing

/-!
# Where the caret stands

A rejection shows the text, and a caret in the line below it. The caret is put as far in as the fault has characters
before it in the whole text, so it stands under the fault exactly if the text is all on one line
(`Rejection.pointsAtFault_iff`): in a text of several lines the line of the fault has fewer characters before it, or the
line below it is another line of the text.

`Text.Cursor` is a place on the screen. A text moves the cursor down by its line feeds (`Cursor.row_after`), and on by
its length exactly if there are none (`Cursor.column_after_eq_iff`).
-/

namespace LabelFilter

open Text

namespace Text

/-! ## Places on the screen -/

/-- Where a character is shown: the lines above it, and the characters before it on its line. -/
structure Cursor where
  row : Nat
  column : Nat
  deriving DecidableEq, Repr

namespace Cursor

/-- The place after a character. A line feed begins a line. -/
def next (p : Cursor) (c : Char) : Cursor := if c = '\n' then ⟨p.row + 1, 0⟩ else ⟨p.row, p.column + 1⟩

/-- The place after a text. -/
def after (p : Cursor) (cs : List Char) : Cursor := cs.foldl next p

/-- The place right below. -/
def below (p : Cursor) : Cursor := ⟨p.row + 1, p.column⟩

variable {p : Cursor} {cs : List Char}

theorem after_cons (p : Cursor) (c : Char) (cs : List Char) : p.after (c :: cs) = (p.next c).after cs := rfl

theorem after_append (p : Cursor) (cs ds : List Char) : p.after (cs ++ ds) = (p.after cs).after ds := List.foldl_append

theorem row_after (p : Cursor) (cs : List Char) : (p.after cs).row = p.row + cs.count '\n' := by
  induction cs generalizing p with
  | nil => rfl
  | cons c cs ih =>
    rw [after_cons, ih, next, List.count_cons]
    by_cases hc : c = '\n'
    · simp only [hc, if_true, beq_self_eq_true]
      omega
    · simp [hc]

theorem column_after_le (p : Cursor) (cs : List Char) : (p.after cs).column ≤ p.column + cs.length := by
  induction cs generalizing p with
  | nil => exact Nat.le_refl _
  | cons c cs ih =>
    have hlater := ih (p.next c)
    have hnext : (p.next c).column ≤ p.column + 1 := by
      unfold next
      split <;> simp
    rw [after_cons, List.length_cons]
    omega

/-- A text moves the cursor on by its length exactly if it has no line feed. -/
theorem column_after_eq_iff : (p.after cs).column = p.column + cs.length ↔ '\n' ∉ cs := by
  induction cs generalizing p with
  | nil => simp [after]
  | cons c cs ih =>
    rw [after_cons, List.length_cons]
    by_cases hc : c = '\n'
    · have hle := column_after_le (p.next c) cs
      have hnext : (p.next c).column = 0 := by rw [next, if_pos hc]
      refine iff_of_false ?_ (fun h => h (hc ▸ List.mem_cons_self))
      omega
    · have hnext : (p.next c).column = p.column + 1 := by rw [next, if_neg hc]
      have hlater := @ih (p.next c)
      have hmem : '\n' ∈ c :: cs ↔ '\n' ∈ cs := by simp [Ne.symm hc]
      rw [hmem, ← hlater, hnext, Nat.add_assoc, Nat.add_comm 1]

/-- A text without line feeds moves the cursor on by its length. -/
theorem after_of_not_mem (h : '\n' ∉ cs) : p.after cs = ⟨p.row, p.column + cs.length⟩ := by
  have hrow := row_after p cs
  rw [List.count_eq_zero_of_not_mem h, Nat.add_zero] at hrow
  have hcolumn := (column_after_eq_iff (p := p)).mpr h
  rw [← hrow, ← hcolumn]

/-- Spaces on a line of their own. -/
theorem after_spaces (p : Cursor) (n : Nat) : p.after ('\n' :: List.replicate n ' ') = ⟨p.row + 1, n⟩ := by
  have hspaces : '\n' ∉ List.replicate n ' ' := fun h => absurd (List.eq_of_mem_replicate h) (by decide)
  have hnext : p.next '\n' = ⟨p.row + 1, 0⟩ := rfl
  rw [after_cons, after_of_not_mem hspaces, hnext, List.length_replicate, Nat.zero_add]

/-- Below a text, spaces for its first part lead right below the end of that part exactly if the text has no line
feed. -/
theorem after_spaces_eq_below_iff {before rest : List Char} :
    (p.after (before ++ rest)).after ('\n' :: List.replicate (p.column + before.length) ' ') = (p.after before).below ↔
      '\n' ∉ before ++ rest := by
  have hcount : (before ++ rest).count '\n' = before.count '\n' + rest.count '\n' := List.count_append
  rw [after_spaces, below, row_after, row_after, hcount, Cursor.mk.injEq, List.mem_append, not_or,
    ← column_after_eq_iff (p := p), ← List.count_eq_zero (l := rest)]
  constructor
  · rintro ⟨hrow, hcolumn⟩
    exact ⟨hcolumn.symm, by omega⟩
  · rintro ⟨hcolumn, hrest⟩
    exact ⟨by omega, hcolumn.symm⟩

end Cursor

end Text

namespace Rejection

/-! ## The caret -/

/-- What is shown before the text: the message, and the indentation of the next line. -/
def heading (r : Rejection) : List Char := r.fault.message.toList ++ ['\n', ' ', ' ']

/-- The text is shown behind the heading, and at the very end a caret that stands right below the fault. -/
def PointsAtFault (r : Rejection) : Prop :=
  ∃ before rest between, r.input.toList = before ++ rest ∧ byteLength before = r.fault.offset ∧
    r.render.toList = r.heading ++ before ++ rest ++ between ++ ['^'] ∧
    Cursor.after ⟨0, 0⟩ (r.heading ++ before ++ rest ++ between) = (Cursor.after ⟨0, 0⟩ (r.heading ++ before)).below

/-- The text begins two characters into its line. -/
theorem column_after_heading (r : Rejection) (p : Cursor) : (p.after r.heading).column = 2 := by
  rw [heading, Cursor.after_append]
  rfl

/-- The caret has two characters before it, and as many more as the fault has in the whole text. -/
theorem toList_render {r : Rejection} {before rest : List Char} (hinput : r.input.toList = before ++ rest)
    (hoffset : byteLength before = r.fault.offset) :
    r.render.toList = r.heading ++ before ++ rest ++ '\n' :: List.replicate (2 + before.length) ' ' ++ ['^'] := by
  have hcolumn : r.column = before.length := by
    rw [column, hinput, ← hoffset, takeBytes?_append]
    rfl
  have hspaces : List.replicate (2 + before.length) ' ' = ' ' :: ' ' :: List.replicate before.length ' ' := by
    rw [Nat.add_comm]
    rfl
  rw [render, hcolumn, hspaces]
  simp [heading, hinput]

/-- As many spaces as the first part of a text has characters, and the indentation, lead right below the end of that
part exactly if the text has no line feed. -/
theorem after_spaces_eq_below_iff (r : Rejection) {before rest : List Char} :
    Cursor.after ⟨0, 0⟩ (r.heading ++ before ++ rest ++ '\n' :: List.replicate (2 + before.length) ' ') =
        (Cursor.after ⟨0, 0⟩ (r.heading ++ before)).below ↔ '\n' ∉ before ++ rest := by
  have hcolumn := r.column_after_heading ⟨0, 0⟩
  have hiff := @Cursor.after_spaces_eq_below_iff (Cursor.after ⟨0, 0⟩ r.heading) before rest
  rwa [hcolumn, ← Cursor.after_append, ← Cursor.after_append, ← Cursor.after_append, ← List.append_assoc r.heading,
    ← List.append_assoc r.heading before] at hiff

/-- The caret stands under a fault that has characters of the text before it exactly if the text has no line feed. -/
theorem pointsAtFault_iff_of_append {r : Rejection} {before rest : List Char} (hinput : r.input.toList = before ++ rest)
    (hoffset : byteLength before = r.fault.offset) : r.PointsAtFault ↔ '\n' ∉ r.input.toList := by
  constructor
  · rintro ⟨before, rest, between, hinput, hoffset, hrender, hcaret⟩
    rw [toList_render hinput hoffset, List.append_left_inj, List.append_right_inj] at hrender
    rwa [← hrender, r.after_spaces_eq_below_iff, ← hinput] at hcaret
  · intro hone
    rw [hinput] at hone
    exact ⟨before, rest, _, hinput, hoffset, toList_render hinput hoffset, r.after_spaces_eq_below_iff.mpr hone⟩

end Rejection

namespace Selector

/-- A character that begins no lexeme has the lexemes before it. -/
theorem append_of_tokenize_eq_error {text : String} {c : StrayCharacter} (h : tokenize text = .error c) :
    ∃ before rest, text.toList = before ++ c.found :: rest ∧ byteLength before = c.offset := by
  unfold tokenize at h
  split at h
  next => cases h
  next ls d rest hsplit =>
    obtain ⟨hchars, _, _⟩ := Lexeme.split_eq_iff.mp hsplit
    cases h
    exact ⟨Lexeme.chars ls, rest, hchars, rfl⟩

/-- A text is rejected together with its fault. -/
theorem read_eq_error_iff {text : String} {r : Rejection} :
    read text = .error r ↔ r.input = text ∧ ofText text = .error r.fault := by
  unfold read
  cases ofText text with
  | ok s => exact ⟨nofun, nofun⟩
  | error e =>
    constructor
    · rintro ⟨⟩
      exact ⟨rfl, rfl⟩
    · rintro ⟨rfl, ⟨⟩⟩
      rfl

/-- The fault of a text has characters of the text before it. -/
theorem exists_append_of_ofText {text : String} {e : SyntaxFault} (h : ofText text = .error e) :
    ∃ before rest, text.toList = before ++ rest ∧ byteLength before = e.offset := by
  cases e with
  | stray c =>
    obtain ⟨before, rest, htext, hoffset⟩ := append_of_tokenize_eq_error (tokenize_of_stray h)
    exact ⟨before, _, htext, hoffset⟩
  | unexpected e =>
    obtain ⟨ls, ms, _, hchars, _, _, _, hoffset, _⟩ := exists_lexemes_of_unexpected h
    rw [Lexeme.chars_append] at hchars
    exact ⟨Lexeme.chars ls, Lexeme.chars ms, hchars, hoffset.symm⟩

end Selector

/-- **The caret stands under the fault of a text of one line.** Of a text that is refused, the caret stands right below
the fault exactly if the text has no line feed. -/
theorem Rejection.pointsAtFault_iff {text : String} {r : Rejection} (h : Selector.read text = .error r) :
    r.input = text ∧ (r.PointsAtFault ↔ '\n' ∉ text.toList) := by
  obtain ⟨rfl, hfault⟩ := Selector.read_eq_error_iff.mp h
  obtain ⟨before, rest, hinput, hoffset⟩ := Selector.exists_append_of_ofText hfault
  exact ⟨rfl, pointsAtFault_iff_of_append hinput hoffset⟩

namespace Rejection

/-- `é b` is refused at its second name. -/
def secondName : Rejection := ⟨"é b", .unexpected ⟨3, 1, .token .label, Grammar.Place.named.expected⟩⟩

theorem pointsAtFault_secondName :
    Selector.read "é b" = .error secondName ∧ secondName.PointsAtFault := by
  have hchars : "é b".toList = Lexeme.chars [Lexeme.ofLabel "é", Lexeme.mark .blank, Lexeme.ofLabel "b"] := by decide
  have hchain : Lexeme.Chain [Lexeme.ofLabel "é", Lexeme.mark .blank, Lexeme.ofLabel "b"] [] := by decide +kernel
  have hrun : Grammar.run .start (Lexeme.place 0 [Lexeme.ofLabel "é", Lexeme.mark .blank, Lexeme.ofLabel "b"]) =
      .error ⟨[⟨.label, some "b", 3⟩], Grammar.Place.named.expected⟩ := rfl
  have hfault : Selector.ofText "é b" = .error secondName.fault :=
    Selector.ofText_of_run_eq_error hchars hchain (by decide) hrun
  have hread : Selector.read "é b" = .error secondName := Selector.read_eq_error_iff.mpr ⟨rfl, hfault⟩
  exact ⟨hread, (pointsAtFault_iff hread).2.mpr (by decide)⟩

/-- `a` and `b` on two lines, refused at the `b`. -/
def secondLine : Rejection := ⟨"a\nb", .unexpected ⟨2, 1, .token .label, Grammar.Place.named.expected⟩⟩

/-- Behind a line feed the caret stands too far in: under nothing, and not under the `b`. -/
theorem not_pointsAtFault_secondLine :
    Selector.read "a\nb" = .error secondLine ∧
    secondLine.render =
      "unexpected label at offset 2, expected \x60in\x60, \x60notin\x60, \x60=\x60, \x60!=\x60, \x60,\x60 or " ++
        "end of input\n  a\nb\n    ^" ∧
    ¬ secondLine.PointsAtFault := by
  have hchars : "a\nb".toList = Lexeme.chars [Lexeme.ofLabel "a", ⟨.blank, ['\n']⟩, Lexeme.ofLabel "b"] := by decide
  have hchain : Lexeme.Chain [Lexeme.ofLabel "a", ⟨.blank, ['\n']⟩, Lexeme.ofLabel "b"] [] := by decide +kernel
  have hrun : Grammar.run .start (Lexeme.place 0 [Lexeme.ofLabel "a", ⟨.blank, ['\n']⟩, Lexeme.ofLabel "b"]) =
      .error ⟨[⟨.label, some "b", 2⟩], Grammar.Place.named.expected⟩ := rfl
  have hfault : Selector.ofText "a\nb" = .error secondLine.fault :=
    Selector.ofText_of_run_eq_error hchars hchain (by decide) hrun
  refine ⟨Selector.read_eq_error_iff.mpr ⟨rfl, hfault⟩, by decide +kernel, ?_⟩
  intro hpoints
  obtain ⟨before, rest, hinput, hoffset⟩ := Selector.exists_append_of_ofText hfault
  exact (pointsAtFault_iff_of_append hinput hoffset).mp hpoints (by decide)

end Rejection

end LabelFilter
