import LabelFilter.Proofs.Json.Strings

/-!
# Arrays and objects of JSON texts

An array of strings is read back from its text, whatever follows it (`strings_text`). The members of an object are read
one after the other, each by the reader of its name. So where written members lead a reader from one state to another
(`Reads`), the text of their object leads it there (`members_text`).
-/

namespace LabelFilter.Json

/-! ## Texts with commas between them -/

/-- The texts with a comma before each. -/
def commaLed (ts : List String) : List Char := ts.flatMap fun t => ',' :: t.toList

theorem commaLed_cons (t : String) (ts : List String) : commaLed (t :: ts) = ',' :: (t.toList ++ commaLed ts) := rfl

/-- Texts with commas between them are the first one, and the others led by commas. -/
theorem toList_intercalate_comma (t : String) (ts : List String) :
    (",".intercalate (t :: ts)).toList = t.toList ++ commaLed ts := by
  induction ts generalizing t with
  | nil => simp [commaLed]
  | cons u us ih =>
    rw [String.intercalate_cons_cons, String.toList_append, String.toList_append, ih, commaLed_cons, List.append_assoc]
    rfl

theorem length_le_commaLed (ts : List String) : ts.length ≤ (commaLed ts).length := by
  induction ts with
  | nil => exact Nat.le_refl _
  | cons t ts ih =>
    simp only [commaLed_cons, List.length_cons, List.length_append]
    omega

/-- The text of a string begins with its quote. -/
theorem toList_stringText (s : String) :
    (stringText s).toList = '"' :: (s.toList.flatMap escapeChar ++ ['"']) := String.toList_ofList

theorem elementTexts_string (ts : List String) : elementTexts (ts.map string) = ts.map stringText := by
  induction ts with
  | nil => rfl
  | cons t ts ih => exact congrArg (stringText t :: ·) ih

theorem length_memberTexts (ms : List (String × Json)) : (memberTexts ms).length = ms.length := by
  induction ms with
  | nil => rfl
  | cons m ms ih => exact congrArg (· + 1) ih

namespace Reader

/-! ## Arrays of strings -/

/-- Reads a string and adds it to those before. -/
def addString (ts : List String) : Reader (List String) := fun cs => do
  let (t, cs) ← Reader.string cs
  return (ts ++ [t], cs)

theorem addString_stringText (ts : List String) (t : String) (rest : List Char) :
    addString ts ((stringText t).toList ++ rest) = .ok (ts ++ [t], rest) := by
  rw [addString, string_stringText]
  rfl

/-- The strings that are led by commas are added one by one. -/
theorem elementsUpTo_commaLed {most : Nat} {more : List String} (h : more.length < most) (ts : List String)
    (rest : List Char) :
    elementsUpTo addString most false ts (commaLed (more.map stringText) ++ ']' :: rest) = .ok (ts ++ more, rest) := by
  induction more generalizing ts most with
  | nil =>
    obtain ⟨most, rfl⟩ := Nat.exists_eq_add_of_lt h
    rw [List.append_nil]
    rfl
  | cons t more ih =>
    obtain ⟨most, rfl⟩ : ∃ m, most = m + 1 := ⟨most - 1, by omega⟩
    have hmore : more.length < most := by
      rw [List.length_cons] at h
      omega
    have hnext : ∀ cs, nextElement false (',' :: ((stringText t).toList ++ cs)) =
        .ok (some ((stringText t).toList ++ cs)) := by
      intro cs
      rw [toList_stringText]
      rfl
    rw [List.map_cons, commaLed_cons, List.cons_append, List.append_assoc, elementsUpTo, hnext]
    simp only [bind, Except.bind, addString_stringText, ih hmore, List.append_assoc, List.singleton_append]

/-- An array of strings is read back from its text. -/
theorem strings_text (ts : List String) (rest : List Char) :
    strings ((array (ts.map .string)).text.toList ++ rest) = .ok (ts, rest) := by
  cases ts with
  | nil => rfl
  | cons t ts =>
    let later := commaLed (ts.map stringText) ++ ']' :: rest
    have htext : (array ((t :: ts).map .string)).text.toList ++ rest = '[' :: ((stringText t).toList ++ later) := by
      rw [text, elementTexts_string, List.map_cons, String.toList_append, String.toList_append,
        toList_intercalate_comma]
      simp [later]
    have hfirst : nextElement true ((stringText t).toList ++ later) = .ok (some ((stringText t).toList ++ later)) := by
      rw [toList_stringText]
      rfl
    have hmost : ts.length < ((stringText t).toList ++ later).length := by
      have hlater := length_le_commaLed (ts.map stringText)
      rw [List.length_map] at hlater
      simp only [later, List.length_append, List.length_cons]
      omega
    have helements : elements addString [] ((stringText t).toList ++ later) = .ok (t :: ts, rest) := by
      rw [elements, elementsUpTo, hfirst]
      simp only [bind, Except.bind, addString_stringText, List.nil_append]
      exact elementsUpTo_commaLed hmost [t] rest
    rw [htext]
    exact helements

/-! ## Members of objects -/

variable {σ : Type} {item : String → σ → Reader σ} {before after : σ} {ms : List (String × Json)}

/-- The members lead from one state to the other: each is read by the reader of its name, whatever follows it. -/
inductive Reads (item : String → σ → Reader σ) : σ → List (String × Json) → σ → Prop
  | nil (state : σ) : Reads item state [] state
  | cons {name : String} {v : Json} {ms : List (String × Json)} {before state after : σ}
      (member : ∀ rest, item name before (':' :: (v.text.toList ++ rest)) = .ok (state, rest))
      (later : Reads item state ms after) : Reads item before ((name, v) :: ms) after

/-- A written member, from the quote of its name on. -/
theorem memberTexts_toList (name : String) (v : Json) (rest : List Char) :
    (stringText name ++ ":" ++ v.text).toList ++ rest =
      '"' :: (name.toList.flatMap escapeChar ++ '"' :: ':' :: (v.text.toList ++ rest)) := by
  rw [String.toList_append, String.toList_append, toList_stringText]
  simp

/-- The members that are led by commas are read one by one. -/
theorem membersUpTo_commaLed {most : Nat} (hreads : Reads item before ms after) (h : ms.length < most)
    (rest : List Char) :
    membersUpTo stringBody item most false before (commaLed (memberTexts ms) ++ '}' :: rest) = .ok (after, rest) := by
  induction hreads generalizing most with
  | nil state =>
    obtain ⟨most, rfl⟩ := Nat.exists_eq_add_of_lt h
    rfl
  | @cons name v ms before state after hmember _ ih =>
    obtain ⟨most, rfl⟩ : ∃ m, most = m + 1 := ⟨most - 1, by omega⟩
    have hms : ms.length < most := by
      rw [List.length_cons] at h
      omega
    have hnext : ∀ cs, nextName false (',' :: '"' :: cs) = .ok (some cs) := fun _ => rfl
    rw [memberTexts, commaLed_cons, List.cons_append, List.append_assoc, memberTexts_toList, membersUpTo, hnext]
    simp only [bind, Except.bind, stringBody_escaped, hmember, ih hms]

/-- An object is read to the state that its members lead to. -/
theorem members_text (hreads : Reads item before ms after) (rest : List Char) :
    ∃ cs, (object ms).text.toList ++ rest = '{' :: cs ∧ members stringBody item before cs = .ok (after, rest) := by
  cases hreads with
  | nil state => exact ⟨'}' :: rest, rfl, rfl⟩
  | @cons name v ms _ state _ hmember hlater =>
    let later := commaLed (memberTexts ms) ++ '}' :: rest
    let body := '"' :: (name.toList.flatMap escapeChar ++ '"' :: ':' :: (v.text.toList ++ later))
    have htext : (object ((name, v) :: ms)).text.toList ++ rest = '{' :: body := by
      have hopening : "\x7b".toList = ['{'] := rfl
      have hclosing : "\x7d".toList = ['}'] := rfl
      rw [text, memberTexts, String.toList_append, String.toList_append, toList_intercalate_comma, hopening, hclosing,
        List.append_assoc, List.append_assoc, List.append_assoc, memberTexts_toList]
      simp only [body, later, List.cons_append, List.nil_append]
    have hmost : ms.length < body.length := by
      have hcommaLed := length_le_commaLed (memberTexts ms)
      rw [length_memberTexts] at hcommaLed
      simp only [body, later, List.length_append, List.length_cons]
      omega
    have hnext : nextName true body = .ok (some body.tail) := rfl
    refine ⟨body, htext, ?_⟩
    rw [members, membersUpTo, hnext]
    simp only [bind, Except.bind, body, List.tail_cons, stringBody_escaped, hmember]
    exact membersUpTo_commaLed hlater hmost rest

end Reader

end LabelFilter.Json
