import LabelFilter.Json.Fault
import LabelFilter.Text.Bytes

/-!
# Reading JSON text

A reader takes a value off the front of a text and gives the rest, or the first fault. This module reads what values
are made of: literals, numbers, strings, and the elements and members of arrays and objects, each of which is
handed to a reader of its own. What a value is wanted for thus decides how it is read, and the faults of the text
and of its form come out in the order of the text.
-/

namespace LabelFilter.Json

open Text

/-- Takes a value off the front of a text. -/
abbrev Reader (α : Type) := List Char → Except Fault (α × List Char)

namespace Reader

/-! ## Blanks and literals -/

/-- Whitespace of JSON, which is narrower than that of selectors. -/
def isSpace (c : Char) : Bool := c == ' ' || c == '\n' || c == '\t' || c == '\r'

def skipSpace (cs : List Char) : List Char := cs.dropWhile isSpace

/-- Takes the given characters off the front. -/
def literal : List Char → List Char → Except Fault (List Char)
  | [], cs => .ok cs
  | _ :: _, [] => .error .cutOff
  | w :: ws, c :: cs => if c = w then literal ws cs else .error .malformed

/-- The colon between a name and its value. -/
def colon (cs : List Char) : Except Fault (List Char) :=
  match skipSpace cs with
  | [] => .error .cutOff
  | ':' :: rest => .ok rest
  | _ => .error .malformed

/-! ## Strings -/

def hexDigit? (c : Char) : Option Nat :=
  if '0' ≤ c ∧ c ≤ '9' then some (c.toNat - '0'.toNat)
  else if 'a' ≤ c ∧ c ≤ 'f' then some (c.toNat - 'a'.toNat + 10)
  else if 'A' ≤ c ∧ c ≤ 'F' then some (c.toNat - 'A'.toNat + 10)
  else none

/-- Four hexadecimal digits. The text is cut off if fewer than four bytes are left. -/
def codeUnit : Reader Nat
  | a :: b :: c :: d :: rest =>
    match hexDigit? a, hexDigit? b, hexDigit? c, hexDigit? d with
    | some a, some b, some c, some d => .ok (((a * 16 + b) * 16 + c) * 16 + d, rest)
    | _, _, _, _ => .error .malformed
  | cs => .error (if byteLength cs < 4 then .cutOff else .malformed)

def isLowSurrogate (n : Nat) : Bool := 0xDC00 ≤ n && n ≤ 0xDFFF

def isHighSurrogate (n : Nat) : Bool := 0xD800 ≤ n && n ≤ 0xDBFF

/-- The character that a backslash and this character stand for. -/
def simpleEscape? : Char → Option Char
  | '"' => some '"'
  | '\\' => some '\\'
  | '/' => some '/'
  | 'b' => some '\x08'
  | 'f' => some '\x0C'
  | 'n' => some '\n'
  | 'r' => some '\r'
  | 't' => some '\t'
  | _ => none

/-- The second half of a surrogate pair, after the first half `high`. -/
def lowHalf (high : Nat) : Reader Char
  | [] => .error .cutOff
  | ['\\'] => .error .cutOff
  | '\\' :: 'u' :: cs => do
    let (low, rest) ← codeUnit cs
    if isLowSurrogate low then
      .ok (Char.ofNat ((high - 0xD800) * 0x400 + (low - 0xDC00) + 0x10000), rest)
    else .error .malformed
  | _ => .error .malformed

/-- A character by its code unit, or by two that make a surrogate pair. -/
def unicodeEscape (cs : List Char) : Except Fault (Char × List Char) := do
  let (n, rest) ← codeUnit cs
  if isLowSurrogate n then .error .malformed
  else if isHighSurrogate n then lowHalf n rest
  else .ok (Char.ofNat n, rest)

/-- What follows a backslash. -/
def escape : Reader Char
  | [] => .error .cutOff
  | 'u' :: cs => unicodeEscape cs
  | c :: cs =>
    match simpleEscape? c with
    | some d => .ok (d, cs)
    | none => .error .malformed

theorem codeUnit_length {cs rest : List Char} {n : Nat} (h : codeUnit cs = .ok (n, rest)) :
    rest.length < cs.length := by
  unfold codeUnit at h
  split at h
  · split at h
    · cases h
      simp only [List.length_cons]
      omega
    · cases h
  · cases h

theorem lowHalf_length {high : Nat} {cs rest : List Char} {c : Char} (h : lowHalf high cs = .ok (c, rest)) :
    rest.length < cs.length := by
  unfold lowHalf at h
  split at h
  case h_3 cs =>
    cases hu : codeUnit cs with
    | error e => simp [hu, bind, Except.bind] at h
    | ok p =>
      obtain ⟨low, rest'⟩ := p
      have hlen := codeUnit_length hu
      simp only [hu, bind, Except.bind] at h
      split at h
      · simp only [Except.ok.injEq, Prod.mk.injEq] at h
        simp only [← h.2, List.length_cons]
        omega
      · cases h
  all_goals cases h

theorem escape_length {cs rest : List Char} {c : Char} (h : escape cs = .ok (c, rest)) :
    rest.length < cs.length := by
  unfold escape at h
  split at h
  · cases h
  next cs =>
    unfold unicodeEscape at h
    cases hu : codeUnit cs with
    | error e => simp [hu, bind, Except.bind] at h
    | ok p =>
      obtain ⟨n, rest'⟩ := p
      have hlen := codeUnit_length hu
      simp only [hu, bind, Except.bind] at h
      split at h
      · cases h
      · split at h
        · have hlow := lowHalf_length h
          simp only [List.length_cons]
          omega
        · simp only [Except.ok.injEq, Prod.mk.injEq] at h
          simp only [← h.2, List.length_cons]
          omega
  · split at h
    · cases h
      simp
    · cases h

/-- The characters of a string up to its closing quote, after the opening one. -/
def stringChars : Reader (List Char)
  | [] => .error .cutOff
  | '"' :: cs => .ok ([], cs)
  | '\\' :: cs =>
    match h : escape cs with
    | .error e => .error e
    | .ok (c, rest) =>
      have := escape_length h
      (fun p => (c :: p.1, p.2)) <$> stringChars rest
  | c :: cs =>
    if c.toNat < 0x20 then .error .malformed else (fun p => (c :: p.1, p.2)) <$> stringChars cs
termination_by cs => cs.length

/-- A string, after its opening quote. -/
def stringBody (cs : List Char) : Except Fault (String × List Char) :=
  (fun p => (String.ofList p.1, p.2)) <$> stringChars cs

/-- The end of a string that nobody wants, after its opening quote. Half a surrogate pair may stand in it. -/
def skipString : List Char → Except Fault (List Char)
  | [] => .error .cutOff
  | '"' :: cs => .ok cs
  | ['\\'] => .error .cutOff
  | '\\' :: 'u' :: cs =>
    match h : codeUnit cs with
    | .error e => .error e
    | .ok (_, rest) =>
      have := codeUnit_length h
      skipString rest
  | '\\' :: c :: cs => if (simpleEscape? c).isSome then skipString cs else .error .malformed
  | c :: cs => if c.toNat < 0x20 then .error .malformed else skipString cs
termination_by cs => cs.length

/-! ## Numbers -/

/-- Digits are taken into the significand while it fits 64 bits; the count of those taken comes with it. -/
def accumulate (significand : Nat) : List Char → Nat × Nat
  | [] => (significand, 0)
  | d :: ds =>
    let next := significand * 10 + (d.toNat - '0'.toNat)
    if next < Binary64.pow2 64 then
      let (total, count) := accumulate next ds
      (total, count + 1)
    else (significand, 0)

/-- The digits at the front. -/
def digits (cs : List Char) : List Char × List Char := (cs.takeWhile Char.isDigit, cs.dropWhile Char.isDigit)

/-- The digits before the point: no zero stands before another digit. -/
def wholePart (cs : List Char) : Except Fault (List Char × List Char) :=
  match digits cs with
  | ([], []) => .error .cutOff
  | ([], _) => .error .malformed
  | ('0' :: _ :: _, _) => .error .malformed
  | (ds, rest) => .ok (ds, rest)

/-- The digits after a point, if there is one. -/
def fractionPart : Reader (Option (List Char))
  | '.' :: cs =>
    match digits cs with
    | ([], []) => .error .cutOff
    | ([], _) => .error .malformed
    | (ds, rest) => .ok (some ds, rest)
  | cs => .ok (none, cs)

/-- The value of digits. -/
def digitsValue (ds : List Char) : Nat := ds.foldl (fun n d => n * 10 + (d.toNat - '0'.toNat)) 0

/-- The sign of an exponent. -/
def exponentSign : List Char → Bool × List Char
  | '+' :: cs => (false, cs)
  | '-' :: cs => (true, cs)
  | cs => (false, cs)

/-- The exponent, if there is one. -/
def exponentPart : Reader (Option Int)
  | [] => .ok (none, [])
  | c :: cs =>
    if c = 'e' ∨ c = 'E' then
      let (isNegative, cs) := exponentSign cs
      match digits cs with
      | ([], []) => .error .cutOff
      | ([], _) => .error .malformed
      | (ds, rest) => .ok (some (if isNegative then -(digitsValue ds : Int) else digitsValue ds), rest)
    else .ok (none, c :: cs)

/-- A number that is written with a fraction or an exponent or that has too many digits is binary64. Digits that do
not fit the significand are dropped, those before the point counting for its exponent. -/
def numberValue (negative : Bool) (whole : List Char) (fraction : Option (List Char)) (exponent : Option Int) :
    Option Number :=
  let (significand, taken) := accumulate 0 whole
  let dropped := whole.length - taken
  match fraction, exponent with
  | none, none =>
    if dropped = 0 ∧ (negative → significand ≠ 0 ∧ significand ≤ Binary64.pow2 63) then
      some (.integer (if negative then -(significand : Int) else significand))
    else (Binary64.ofDecimal negative significand dropped).map .double
  | _, _ =>
    let (significand, places) := accumulate significand (fraction.getD [])
    (Binary64.ofDecimal negative significand ((dropped : Int) - places + exponent.getD 0)).map .double

/-- A number after its sign. A number beyond the finite ones is no number. -/
def unsigned (negative : Bool) (cs : List Char) : Except Fault (Number × List Char) := do
  let (whole, cs) ← wholePart cs
  let (fraction, cs) ← fractionPart cs
  let (exponent, cs) ← exponentPart cs
  match numberValue negative whole fraction exponent with
  | some n => .ok (n, cs)
  | none => .error .malformed

/-- A number, from its sign or first digit on. -/
def number : Reader Number
  | '-' :: cs => unsigned true cs
  | cs => unsigned false cs

/-- The end of a number that nobody wants. A number that is cut off is malformed here, and none is too large. -/
def skipNumber (cs : List Char) : Except Fault (List Char) :=
  let cs := match cs with
    | '-' :: cs => cs
    | cs => cs
  let parts : Except Fault (List Char) := do
    let (_, cs) ← wholePart cs
    let (_, cs) ← fractionPart cs
    let (_, cs) ← exponentPart cs
    .ok cs
  parts.mapError fun _ => .malformed

/-! ## Arrays and objects -/

/-- The front of the next element of an array, or nothing before the closing bracket. -/
def nextElement (isFirst : Bool) (cs : List Char) : Except Fault (Option (List Char)) :=
  match skipSpace cs with
  | [] => .error .cutOff
  | ']' :: _ => .ok none
  | c :: rest =>
    if isFirst then .ok (some (c :: rest))
    else if c = ',' then
      match skipSpace rest with
      | [] => .error .cutOff
      | ']' :: _ => .error .malformed
      | rest => .ok (some rest)
    else .error .malformed

def closeArray (cs : List Char) : Except Fault (List Char) :=
  match skipSpace cs with
  | [] => .error .cutOff
  | ']' :: rest => .ok rest
  | _ => .error .malformed

/-- What follows the quote of the next name of an object, or nothing before the closing brace. -/
def nextName (isFirst : Bool) (cs : List Char) : Except Fault (Option (List Char)) :=
  match skipSpace cs with
  | [] => .error .cutOff
  | '}' :: _ => .ok none
  | c :: rest =>
    if isFirst then if c = '"' then .ok (some rest) else .error .malformed
    else if c = ',' then
      match skipSpace rest with
      | [] => .error .cutOff
      | '"' :: rest => .ok (some rest)
      | _ => .error .malformed
    else .error .malformed

def closeObject (cs : List Char) : Except Fault (List Char) :=
  match skipSpace cs with
  | [] => .error .cutOff
  | '}' :: rest => .ok rest
  | _ => .error .malformed

/-- The elements of an array after its bracket. `item` reads one and joins it to those before; there are at most
`most` of them. -/
def elementsUpTo {σ : Type} (item : σ → Reader σ) : (most : Nat) → (isFirst : Bool) → σ → Reader σ
  | 0, _, _, _ => .error .malformed
  | most + 1, isFirst, state, cs => do
    match ← nextElement isFirst cs with
    | none => return (state, ← closeArray cs)
    | some cs =>
      let (state, cs) ← item state cs
      elementsUpTo item most false state cs

/-- All elements of an array after its bracket. A text has no more elements than characters. -/
def elements {σ : Type} (item : σ → Reader σ) (state : σ) : Reader σ := fun cs =>
  elementsUpTo item (cs.length + 1) true state cs

/-- The members of an object after its brace. `name` reads a name, and `item` what follows it. -/
def membersUpTo {σ κ : Type} (name : Reader κ) (item : κ → σ → Reader σ) :
    (most : Nat) → (isFirst : Bool) → σ → Reader σ
  | 0, _, _, _ => .error .malformed
  | most + 1, isFirst, state, cs => do
    match ← nextName isFirst cs with
    | none => return (state, ← closeObject cs)
    | some cs =>
      let (key, cs) ← name cs
      let (state, cs) ← item key state cs
      membersUpTo name item most false state cs

/-- All members of an object after its brace. -/
def members {σ κ : Type} (name : Reader κ) (item : κ → σ → Reader σ) (state : σ) : Reader σ := fun cs =>
  membersUpTo name item (cs.length + 1) true state cs

end Reader

end LabelFilter.Json
