import LabelFilter.Sql.Literal

/-!
# Reading SQL

`Sql.read` tells the string literals of a text from the code around them. It goes from left to right and knows nothing
but the rule of the literals: a doubled quote stands for a quote, and where the backslash escapes, the character behind
it stands for itself.

Two texts are alike if both are the same code with literals in the same places, whatever the literals hold (`Alike`).
Reading them gives the same code, and from the literals the texts that they were written for (`Alike.exists_read`).
-/

namespace LabelFilter.Sql

/-- What is read: a character of code, or a literal with the text that it stands for. -/
inductive Piece
  | code (c : Char)
  | literal (text : String)
  deriving DecidableEq, Repr

namespace Piece

/-- The character, if it is code. -/
def code? : Piece → Option Char
  | code c => some c
  | literal _ => none

end Piece

/-- Where the reader is. -/
inductive Place
  | outside
  /-- In a literal, with its text so far. -/
  | inside (text : List Char)
  /-- Behind a quote in a literal, which ends there unless another quote follows. -/
  | behindQuote (text : List Char)
  /-- Behind a backslash that escapes. -/
  | behindBackslash (text : List Char)

/-- Reads on from a place. There is nothing to read if the text ends within a literal. -/
def readFrom (q : Quoting) : Place → List Char → Option (List Piece)
  | .outside, [] => some []
  | .outside, c :: cs => if c = '\x27' then readFrom q (.inside []) cs else (readFrom q .outside cs).map (.code c :: ·)
  | .inside _, [] => none
  | .inside text, c :: cs =>
    if c = '\x27' then readFrom q (.behindQuote text) cs
    else if q = .backslash ∧ c = '\\' then readFrom q (.behindBackslash text) cs
    else readFrom q (.inside (text ++ [c])) cs
  | .behindQuote text, [] => some [.literal (String.ofList text)]
  | .behindQuote text, c :: cs =>
    if c = '\x27' then readFrom q (.inside (text ++ [c])) cs
    else (readFrom q .outside cs).map fun ps => .literal (String.ofList text) :: .code c :: ps
  | .behindBackslash _, [] => none
  | .behindBackslash text, c :: cs => readFrom q (.inside (text ++ [c])) cs

/-- The pieces of a text, if all of its literals end. -/
def read (q : Quoting) (sql : String) : Option (List Piece) := readFrom q .outside sql.toList

/-- The code, with a gap for each literal. -/
def code (q : Quoting) (sql : String) : Option (List (Option Char)) := (read q sql).map (List.map Piece.code?)

/-! ## Quotes -/

/-- The text holds no quote. -/
def Unquoted (text : String) : Prop := '\x27' ∉ text.toList

instance (text : String) : Decidable (Unquoted text) := inferInstanceAs (Decidable (_ ∉ _))

/-- The text does not begin with a quote, so a literal before it ends where it begins. -/
def Apart (text : String) : Prop := text.toList.head? ≠ some '\x27'

theorem Unquoted.append {s t : String} (hs : Unquoted s) (ht : Unquoted t) : Unquoted (s ++ t) := by
  unfold Unquoted
  rw [String.toList_append, List.mem_append, not_or]
  exact ⟨hs, ht⟩

theorem Unquoted.apart {text : String} (h : Unquoted text) : Apart text :=
  fun hhead => h (List.mem_of_mem_head? hhead)

theorem Apart.append {s t : String} (hs : Apart s) (ht : Apart t) : Apart (s ++ t) := by
  unfold Apart at *
  rw [String.toList_append]
  cases hcs : s.toList with
  | nil => exact ht
  | cons c cs => rwa [hcs] at hs

theorem Apart.append_of_ne_empty {s : String} (hs : Apart s) (hne : s ≠ "") (t : String) : Apart (s ++ t) := by
  unfold Apart at *
  rw [String.toList_append]
  cases hcs : s.toList with
  | nil => exact absurd (String.toList_inj.mp hcs) hne
  | cons c cs => rwa [hcs] at hs

/-! ## What is written is read -/

section Reading

variable {q : Quoting}

/-- Code without a quote is read as it stands. -/
theorem readFrom_code {cs : List Char} (h : '\x27' ∉ cs) (rest : List Char) :
    readFrom q .outside (cs ++ rest) = (readFrom q .outside rest).map (cs.map Piece.code ++ ·) := by
  induction cs with
  | nil => simp
  | cons c cs ih =>
    rw [List.mem_cons, not_or] at h
    rw [List.cons_append, readFrom, if_neg (Ne.symm h.1), ih h.2, Option.map_map]
    rfl

theorem Quoting.isSpecial_iff {c : Char} : q.isSpecial c ↔ c = '\x27' ∨ q = .backslash ∧ c = '\\' := by
  cases q <;> simp [isSpecial]

/-- In a literal, a character is read back from how it is written there. -/
theorem readFrom_literalChar (c : Char) (text rest : List Char) :
    readFrom q (.inside text) (literalChar q c ++ rest) = readFrom q (.inside (text ++ [c])) rest := by
  by_cases hspecial : q.isSpecial c
  · rw [literalChar, if_pos hspecial]
    rcases Quoting.isSpecial_iff.mp hspecial with rfl | ⟨rfl, rfl⟩ <;> simp [readFrom]
  · rw [literalChar, if_neg hspecial]
    rw [Quoting.isSpecial_iff, not_or] at hspecial
    rw [List.singleton_append, readFrom, if_neg hspecial.1, if_neg hspecial.2]

theorem readFrom_literalChars (cs text rest : List Char) :
    readFrom q (.inside text) (cs.flatMap (literalChar q) ++ rest) = readFrom q (.inside (text ++ cs)) rest := by
  induction cs generalizing text with
  | nil => simp
  | cons c cs ih => rw [List.flatMap_cons, List.append_assoc, readFrom_literalChar, ih, List.append_assoc]; rfl

/-- A literal is read back where it ends, which is before anything but a quote. -/
theorem readFrom_literal (text : String) {rest : String} (h : Apart rest) :
    readFrom q .outside (literal q text ++ rest).toList =
      (readFrom q .outside rest.toList).map (.literal text :: ·) := by
  have hwritten : (literal q text ++ rest).toList =
      '\x27' :: (text.toList.flatMap (literalChar q) ++ '\x27' :: rest.toList) := by
    simp [literal]
  rw [hwritten, readFrom, if_pos rfl, readFrom_literalChars, List.nil_append, readFrom, if_pos rfl]
  unfold Apart at h
  cases hrest : rest.toList with
  | nil => simp [readFrom]
  | cons c cs =>
    have hc : c ≠ '\x27' := by
      rintro rfl
      rw [hrest] at h
      exact h rfl
    simp [readFrom, hc, Function.comp_def]

end Reading

/-! ## Texts that are alike -/

/-- The texts are the same code with literals in the same places. The literals stand for `texts` in the one and for
`others` in the other. -/
inductive Alike (q : Quoting) : (s t : String) → (texts others : List String) → Prop
  | empty : Alike q "" "" [] []
  | code {s t : String} {texts others : List String} (code : String) (hcode : Unquoted code)
      (h : Alike q s t texts others) : Alike q (code ++ s) (code ++ t) texts others
  | literal {s t : String} {texts others : List String} (text other : String) (hs : Apart s) (ht : Apart t)
      (h : Alike q s t texts others) :
      Alike q (literal q text ++ s) (literal q other ++ t) (text :: texts) (other :: others)

namespace Alike

variable {q : Quoting} {s t s' t' : String} {texts others texts' others' : List String}

end Alike

/-! ## Putting texts together -/

section Composition

variable {q : Quoting} {s t s' t' : String} {texts others texts' others' : List String}

namespace Alike

/-- Code is alike to itself. -/
theorem ofCode {code : String} (hcode : Unquoted code) : Alike q code code [] [] := by
  have h := Alike.code code hcode (.empty (q := q))
  rwa [String.append_empty] at h

/-- Alike texts may follow one another, unless a literal would run on. -/
theorem append (h : Alike q s t texts others) (h' : Alike q s' t' texts' others') (hs' : Apart s') (ht' : Apart t') :
    Alike q (s ++ s') (t ++ t') (texts ++ texts') (others ++ others') := by
  induction h with
  | empty => simpa using h'
  | code code hcode _ ih =>
    rw [String.append_assoc, String.append_assoc]
    exact .code code hcode ih
  | literal text other hs ht _ ih =>
    rw [String.append_assoc, String.append_assoc]
    exact .literal text other (hs.append hs') (ht.append ht') ih

/-- Alike texts may be followed by the same code. -/
theorem append_code (h : Alike q s t texts others) {code : String} (hcode : Unquoted code) :
    Alike q (s ++ code) (t ++ code) texts others := by
  have happend := h.append (ofCode hcode) hcode.apart hcode.apart
  rwa [List.append_nil, List.append_nil] at happend

/-- Alike texts with the same code between them are alike. -/
theorem append_code_append (h : Alike q s t texts others) {code : String} (hcode : Unquoted code) (hne : code ≠ "")
    (h' : Alike q s' t' texts' others') :
    Alike q (s ++ code ++ s') (t ++ code ++ t') (texts ++ texts') (others ++ others') := by
  rw [String.append_assoc, String.append_assoc]
  have hapart : ∀ s, Apart (code ++ s) := hcode.apart.append_of_ne_empty hne
  exact h.append (.code code hcode h') (hapart _) (hapart _)

end Alike

/-- The texts of two lists are alike one by one. -/
inductive AlikeEach (q : Quoting) : (ss ts : List String) → (texts others : List String) → Prop
  | nil : AlikeEach q [] [] [] []
  | cons {s t : String} {ss ts texts others texts' others' : List String} (h : Alike q s t texts others)
      (hs : AlikeEach q ss ts texts' others') : AlikeEach q (s :: ss) (t :: ts) (texts ++ texts') (others ++ others')

/-- Texts that are alike one by one are alike with the same code between them. -/
theorem AlikeEach.intercalate {sep : String} (hsep : Unquoted sep) (hne : sep ≠ "") {ss ts : List String}
    (h : AlikeEach q ss ts texts others) : Alike q (sep.intercalate ss) (sep.intercalate ts) texts others := by
  induction h with
  | nil => exact .empty
  | cons h hs ih =>
    cases hs with
    | nil => simpa using h
    | cons =>
      rw [String.intercalate_cons_cons, String.intercalate_cons_cons]
      exact h.append_code_append hsep hne ih

end Composition

end LabelFilter.Sql
