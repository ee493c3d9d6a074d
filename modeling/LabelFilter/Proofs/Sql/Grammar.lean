import LabelFilter.Proofs.Predicate.Connective

/-!
# Boolean expressions of SQL

A boolean expression is cut into words and parentheses (`Sql.parts`), and these mean a tree by a grammar (`Sql.Means`):
operands are joined by `AND`, what is joined so is joined by `OR`, and a negation, or any expression in parentheses, is an
operand. So `NOT` binds tighter than `AND`, and `AND` tighter than `OR`. A word that is no keyword is a test.

An expression means one tree at most (`Reads.unique`): where an operand ends does not depend on what follows it, and
joined members end before anything but a keyword that joins them to more (`Means.cut_unique`).
-/

namespace LabelFilter.Sql

open Predicate (Connective)

/-! ## Words and parentheses -/

/-- What a boolean expression is made of. -/
inductive Part
  | opening
  | closing
  | word (text : String)
  deriving DecidableEq, Repr

/-- A character that ends a word, as it stands for itself: a space for nothing, and a parenthesis for one. -/
def break? : Char → Option (List Part)
  | ' ' => some []
  | '(' => some [.opening]
  | ')' => some [.closing]
  | _ => none

/-- The word that ends, if there is one. -/
def ended (word : List Char) : List Part := if word.isEmpty then [] else [.word (String.ofList word)]

/-- Cuts a text of which a word has begun. -/
def partsFrom (word : List Char) : List Char → List Part
  | [] => ended word
  | c :: cs =>
    match break? c with
    | some marks => ended word ++ marks ++ partsFrom [] cs
    | none => partsFrom (word ++ [c]) cs

/-- The words and parentheses of an expression. -/
def parts (sql : String) : List Part := partsFrom [] sql.toList

/-- The text is one word, and no keyword. -/
def IsAtom (text : String) : Prop :=
  text ≠ "" ∧ (' ' ∉ text.toList ∧ '(' ∉ text.toList ∧ ')' ∉ text.toList) ∧
    text ∉ ["TRUE", "FALSE", "NOT", "AND", "OR"]

instance (text : String) : Decidable (IsAtom text) := inferInstanceAs (Decidable (_ ∧ _ ∧ _))

/-- A text that a word before it does not run on into. -/
def Breaks (cs : List Char) : Prop := ∀ c ∈ cs.head?, (break? c).isSome

theorem breaks_cons {c : Char} (h : (break? c).isSome) (cs : List Char) : Breaks (c :: cs) :=
  fun _ hd => Option.some.inj hd ▸ h

theorem partsFrom_of_breaks {cs : List Char} (h : Breaks cs) (word : List Char) :
    partsFrom word cs = ended word ++ partsFrom [] cs := by
  cases cs with
  | nil => exact (List.append_nil _).symm
  | cons c cs =>
    obtain ⟨marks, hmarks⟩ := Option.isSome_iff_exists.mp (h c rfl)
    simp [partsFrom, hmarks, ended]

/-- A text is cut piece by piece where no word runs on. -/
theorem partsFrom_append {rest : List Char} (h : Breaks rest) (word cs : List Char) :
    partsFrom word (cs ++ rest) = partsFrom word cs ++ partsFrom [] rest := by
  induction cs generalizing word with
  | nil => exact partsFrom_of_breaks h word
  | cons c cs ih =>
    rw [List.cons_append, partsFrom, partsFrom]
    cases break? c with
    | some marks => simp only [ih, List.append_assoc]
    | none => exact ih (word ++ [c])

theorem parts_append {t : String} (h : Breaks t.toList) (s : String) : parts (s ++ t) = parts s ++ parts t := by
  rw [parts, String.toList_append, partsFrom_append h]
  rfl

/-- A text without spaces and parentheses goes on with the word before it. -/
theorem partsFrom_word {cs : List Char} (h : ' ' ∉ cs ∧ '(' ∉ cs ∧ ')' ∉ cs) (word : List Char) :
    partsFrom word cs = ended (word ++ cs) := by
  induction cs generalizing word with
  | nil => rw [List.append_nil, partsFrom]
  | cons c cs ih =>
    simp only [List.mem_cons, not_or] at h
    obtain ⟨⟨hspace, hs⟩, ⟨hopening, ho⟩, hclosing, hc⟩ := h
    have hnone : break? c = none := by
      unfold break?
      split
      · exact absurd rfl hspace
      · exact absurd rfl hopening
      · exact absurd rfl hclosing
      · rfl
    rw [partsFrom, hnone]
    exact (ih ⟨hs, ho, hc⟩ (word ++ [c])).trans (by rw [List.append_assoc, List.singleton_append])

theorem IsAtom.parts_eq {text : String} (h : IsAtom text) : parts text = [.word text] := by
  have hne : text.toList ≠ [] := fun hnil => h.1 (String.toList_inj.mp hnil)
  rw [parts, partsFrom_word h.2.1, List.nil_append, ended, if_neg (by simpa using hne), String.ofList_toList]

theorem parts_opening (s : String) : parts ("(" ++ s) = .opening :: parts s := by
  rw [parts, String.toList_append]
  rfl

theorem parts_closing (s : String) : parts (s ++ ")") = parts s ++ [.closing] := by
  have hbreaks : Breaks ")".toList := breaks_cons (c := ')') rfl []
  exact parts_append hbreaks s

theorem parts_not (s : String) : parts ("NOT " ++ s) = .word "NOT" :: parts s := by
  rw [parts, String.toList_append]
  rfl

/-! ## Grammar -/

/-- The keyword that joins the members of a group. -/
def keyword : Connective → String
  | .conjunction => "AND"
  | .disjunction => "OR"

/-- Joined members bind less tightly than each of them. -/
inductive Rank
  | operand
  | joined (k : Connective)

/-- What may be a member without parentheses. -/
def memberRank : Connective → Rank
  | .conjunction => .operand
  | .disjunction => .joined .conjunction

/-- The tree that a word means by itself. The other keywords mean none. -/
def meaning? (text : String) : Option (Predicate String) :=
  if text = "TRUE" then some (.const true)
  else if text = "FALSE" then some (.const false)
  else if text ∈ ["NOT", "AND", "OR"] then none
  else some (.test text)

mutual

/-- The parts mean the tree, as an expression of the rank. -/
inductive Means : Rank → List Part → Predicate String → Prop
  | word {text : String} {p : Predicate String} (meaning : meaning? text = some p) : Means .operand [.word text] p
  | not {ts : List Part} {p : Predicate String} (operand : Means .operand ts p) :
      Means .operand (.word "NOT" :: ts) (.not p)
  | parentheses {ts : List Part} {p : Predicate String} (inner : Means (.joined .disjunction) ts p) :
      Means .operand (.opening :: (ts ++ [.closing])) p
  /-- One member is not joined with anything and means what it means by itself. -/
  | joined {k : Connective} {ts : List Part} {ps : List (Predicate String)} (members : MeansEach k ts ps) :
      Means (.joined k) ts (k.group ps)

/-- The parts mean the trees, one after the other, with the keyword between them. -/
inductive MeansEach : Connective → List Part → List (Predicate String) → Prop
  | one {k : Connective} {ts : List Part} {p : Predicate String} (member : Means (memberRank k) ts p) :
      MeansEach k ts [p]
  | cons {k : Connective} {ts us : List Part} {p : Predicate String} {ps : List (Predicate String)}
      (member : Means (memberRank k) ts p) (rest : MeansEach k us ps) :
      MeansEach k (ts ++ .word (keyword k) :: us) (p :: ps)

end

/-- The boolean expression means the tree. -/
def Reads (sql : String) (p : Predicate String) : Prop := Means (.joined .disjunction) (parts sql) p

/-! ## What an operand may be -/

/-- An operand may be a member of any group. -/
theorem Means.member {ts : List Part} {p : Predicate String} (h : Means .operand ts p) (k : Connective) :
    Means (memberRank k) ts p := by
  cases k with
  | conjunction => exact h
  | disjunction => exact .joined (.one (k := .conjunction) h)

/-- A member alone is an expression. -/
theorem Means.alone {k : Connective} {ts : List Part} {p : Predicate String} (h : Means (memberRank k) ts p) :
    Means (.joined k) ts p :=
  .joined (.one h)

/-- Whatever is joined is an expression. -/
theorem Means.expression {k : Connective} {ts : List Part} {p : Predicate String} (h : Means (.joined k) ts p) :
    Means (.joined .disjunction) ts p := by
  cases k with
  | conjunction => exact .alone h
  | disjunction => exact h

theorem IsAtom.meaning?_eq {text : String} (h : IsAtom text) : meaning? text = some (.test text) := by
  obtain ⟨-, -, hword⟩ := h
  simp only [List.mem_cons, List.not_mem_nil, or_false, not_or] at hword
  simp [meaning?, hword]

theorem meaning?_not : meaning? "NOT" = none := by decide

/-! ## An expression means one tree -/

/-- The connectives whose keywords do not end an expression of the rank, but go on with it. -/
def joinedBy : Rank → List Connective
  | .operand => []
  | .joined .conjunction => [.conjunction]
  | .joined .disjunction => [.conjunction, .disjunction]

/-- An expression of the rank ends before these parts. -/
def Ends (r : Rank) (rest : List Part) : Prop := ∀ k ∈ joinedBy r, rest.head? ≠ some (.word (keyword k))

section Ends

variable {k : Connective} {rest : List Part}

theorem Ends.member (h : Ends (.joined k) rest) : Ends (memberRank k) rest := by
  cases k <;> simp_all [Ends, joinedBy, memberRank]

theorem Ends.head?_ne (h : Ends (.joined k) rest) : rest.head? ≠ some (.word (keyword k)) :=
  h k (by cases k <;> simp [joinedBy])

/-- A member ends before the keyword of its group. -/
theorem ends_keyword (k : Connective) (rest : List Part) : Ends (memberRank k) (.word (keyword k) :: rest) := by
  cases k <;> simp [Ends, joinedBy, memberRank, keyword]

theorem ends_closing (r : Rank) (rest : List Part) : Ends r (.closing :: rest) := fun _ _ => by simp

theorem ends_nil (r : Rank) : Ends r [] := fun _ _ => by simp

end Ends

mutual

/-- Where an expression ends in longer parts, and what it means, is settled by its rank. -/
theorem Means.cut_unique : ∀ {r : Rank} {ts us rest rest' : List Part} {p q : Predicate String}, Means r ts p →
    Means r us q → ts ++ rest = us ++ rest' → Ends r rest → Ends r rest' → ts = us ∧ p = q
  | _, _, _, _, _, _, _, .word hp, h, heq, _, _ => by
    cases h with
    | word hq =>
      obtain ⟨rfl⟩ := Part.word.inj (List.cons.inj heq).1
      exact ⟨rfl, Option.some.inj (hp.symm.trans hq)⟩
    | not =>
      obtain rfl := Part.word.inj (List.cons.inj heq).1
      cases meaning?_not.symm.trans hp
    | parentheses => cases heq
  | _, _, _, _, _, _, _, .not hp, h, heq, hends, hends' => by
    cases h with
    | word hq =>
      obtain rfl := Part.word.inj (List.cons.inj heq).1
      cases meaning?_not.symm.trans hq
    | not hq =>
      obtain ⟨rfl, rfl⟩ := hp.cut_unique hq (List.cons.inj heq).2 hends hends'
      exact ⟨rfl, rfl⟩
    | parentheses => cases heq
  | _, _, _, _, _, _, _, .parentheses hp, h, heq, _, _ => by
    cases h with
    -- The closing parentheses belong to what follows the expressions inside, and no rank goes on with one.
    | parentheses hq =>
      have hinner := List.cons.inj heq
      simp only [List.append_eq, List.append_assoc, true_and] at hinner
      obtain ⟨rfl, rfl⟩ := hp.cut_unique hq hinner (ends_closing _ _) (ends_closing _ _)
      exact ⟨rfl, rfl⟩
    | _ => cases heq
  | _, _, _, _, _, _, _, .joined hps, h, heq, hends, hends' => by
    cases h with
    | joined hqs =>
      obtain ⟨rfl, rfl⟩ := hps.cut_unique hqs heq hends hends'
      exact ⟨rfl, rfl⟩

theorem MeansEach.cut_unique : ∀ {k : Connective} {ts us rest rest' : List Part} {ps qs : List (Predicate String)},
    MeansEach k ts ps → MeansEach k us qs → ts ++ rest = us ++ rest' → Ends (.joined k) rest → Ends (.joined k) rest' →
    ts = us ∧ ps = qs
  | _, _, _, _, _, _, _, .one hp, h, heq, hends, hends' => by
    cases h with
    | one hq =>
      obtain ⟨rfl, rfl⟩ := hp.cut_unique hq heq hends.member hends'.member
      exact ⟨rfl, rfl⟩
    -- The first members are the same, so the keyword comes where the other expression has ended.
    | cons hq hqs =>
      rw [List.append_assoc] at heq
      obtain ⟨rfl, rfl⟩ := hp.cut_unique hq heq hends.member (ends_keyword _ _)
      exact absurd (congrArg List.head? (List.append_cancel_left heq)) hends.head?_ne
  | _, _, _, _, _, _, _, .cons hp hps, h, heq, hends, hends' => by
    rw [List.append_assoc] at heq
    cases h with
    | one hq =>
      obtain ⟨rfl, rfl⟩ := hp.cut_unique hq heq (ends_keyword _ _) hends'.member
      exact absurd (congrArg List.head? (List.append_cancel_left heq)).symm hends'.head?_ne
    | cons hq hqs =>
      rw [List.append_assoc] at heq
      obtain ⟨rfl, rfl⟩ := hp.cut_unique hq heq (ends_keyword _ _) (ends_keyword _ _)
      have hrest := (List.cons.inj (List.append_cancel_left heq)).2
      obtain ⟨rfl, rfl⟩ := hps.cut_unique hqs hrest hends hends'
      exact ⟨rfl, rfl⟩

end

/-- **The grammar is unambiguous**: a boolean expression means one tree at most. -/
theorem Reads.unique {sql : String} {p q : Predicate String} (hp : Reads sql p) (hq : Reads sql q) : p = q :=
  (Means.cut_unique hp hq rfl (ends_nil _) (ends_nil _)).2

end LabelFilter.Sql
