import LabelFilter.Json.Reading
import LabelFilter.Json.Text

/-!
# Strings of JSON texts

Every character is read back from the way it is written in a string (`stringChars_escapeChar`), so every string is read
back from its JSON text, whatever follows it (`string_stringText`).
-/

namespace LabelFilter.Json.Reader

/-- A hexadecimal digit is read as its value. -/
theorem hexDigit?_digitChar {n : Nat} (h : n < 16) : hexDigit? (Nat.digitChar n) = some n := by
  have hall : ∀ n < 16, hexDigit? (Nat.digitChar n) = some n := by decide
  exact hall n h

/-! ## Steps of the reader -/

/-- The closing quote ends a string. -/
theorem stringChars_quote (rest : List Char) : stringChars ('"' :: rest) = .ok ([], rest) := by
  rw [stringChars]

/-- A character that nothing escapes stands for itself. -/
theorem stringChars_plain {c : Char} (hquote : c ≠ '"') (hbackslash : c ≠ '\\') (hcontrol : ¬c.toNat < 0x20)
    (rest : List Char) : stringChars (c :: rest) = (fun p => (c :: p.1, p.2)) <$> stringChars rest := by
  rw [stringChars, if_neg hcontrol]
  · exact hquote
  · exact hbackslash

/-- An escape that is read as a character stands for it. -/
theorem stringChars_escape {cs rest : List Char} {c : Char} (h : escape cs = .ok (c, rest)) :
    stringChars ('\\' :: cs) = (fun p => (c :: p.1, p.2)) <$> stringChars rest := by
  rw [stringChars]
  split
  next e he => rw [h] at he; cases he
  next d rest' hd => rw [h] at hd; cases hd; rfl

/-- A letter or sign behind a backslash stands for the character that it names. -/
theorem escape_simple {c d : Char} (h : simpleEscape? c = some d) (rest : List Char) :
    escape (c :: rest) = .ok (d, rest) := by
  have hu : c ≠ 'u' := by
    rintro rfl
    cases h
  rw [escape, h]
  exact hu

/-- A control character is read back from its code unit. -/
theorem escape_control {c : Char} (h : c.toNat < 0x20) (rest : List Char) :
    escape ('u' :: '0' :: '0' :: Nat.digitChar (c.toNat / 16) :: Nat.digitChar (c.toNat % 16) :: rest) =
      .ok (c, rest) := by
  have hunit : codeUnit ('0' :: '0' :: Nat.digitChar (c.toNat / 16) :: Nat.digitChar (c.toNat % 16) :: rest) =
      .ok (c.toNat, rest) := by
    have hzero : hexDigit? '0' = some 0 := rfl
    have hhigh := hexDigit?_digitChar (show c.toNat / 16 < 16 by omega)
    have hlow := hexDigit?_digitChar (show c.toNat % 16 < 16 by omega)
    simp only [codeUnit, hzero, hhigh, hlow, Except.ok.injEq, Prod.mk.injEq, and_true]
    omega
  have hnoLow : isLowSurrogate c.toNat = false := by
    simp only [isLowSurrogate, Bool.and_eq_false_iff, decide_eq_false_iff_not]
    omega
  have hnoHigh : isHighSurrogate c.toNat = false := by
    simp only [isHighSurrogate, Bool.and_eq_false_iff, decide_eq_false_iff_not]
    omega
  simp [escape, unicodeEscape, hunit, bind, Except.bind, hnoLow, hnoHigh]

/-! ## Written strings -/

/-- A character is read back from how it is written in a string. -/
theorem stringChars_escapeChar (c : Char) (rest : List Char) :
    stringChars (escapeChar c ++ rest) = (fun p => (c :: p.1, p.2)) <$> stringChars rest := by
  unfold escapeChar
  -- seven characters have an escape of their own
  iterate 7
    split
    next h => exact stringChars_escape (escape_simple (by rw [h]; rfl) rest)
  rename_i hquote hbackslash _ _ _ _ _
  split
  next hcontrol => exact stringChars_escape (escape_control hcontrol rest)
  next hcontrol => exact stringChars_plain hquote hbackslash hcontrol rest

theorem stringChars_escaped (cs rest : List Char) :
    stringChars (cs.flatMap escapeChar ++ '"' :: rest) = .ok (cs, rest) := by
  induction cs with
  | nil => exact stringChars_quote rest
  | cons c cs ih =>
    rw [List.flatMap_cons, List.append_assoc, stringChars_escapeChar, ih]
    rfl

/-- A string is read back from what stands behind its opening quote. -/
theorem stringBody_escaped (s : String) (rest : List Char) :
    stringBody (s.toList.flatMap escapeChar ++ '"' :: rest) = .ok (s, rest) := by
  rw [stringBody, stringChars_escaped]
  simp [Functor.map, Except.map]

/-- A string is read back from its JSON text. -/
theorem string_stringText (s : String) (rest : List Char) :
    Reader.string ((stringText s).toList ++ rest) = .ok (s, rest) := by
  have htext : (stringText s).toList ++ rest = '"' :: (s.toList.flatMap escapeChar ++ '"' :: rest) := by
    simp [stringText]
  rw [htext]
  exact stringBody_escaped s rest

end LabelFilter.Json.Reader
