import LabelFilter.Text.Unprintable

/-!
# Quoted text

Messages show text and single characters between quotes, so that blanks and invisible characters can be told
apart: a backslash escapes the quote, itself and the usual controls, and whatever cannot be shown is written as
its code point.
-/

namespace LabelFilter.Text

/-- The code point in lower-case hexadecimal, without leading zeros, between braces. -/
def codePoint (c : Char) : List Char :=
  ['\\', 'u', '{'] ++ Nat.toDigits 16 c.toNat ++ ['}']

/-- One character as it stands between a pair of `mark`s. -/
def quotedChar (mark : Char) (c : Char) : List Char :=
  if c = '\x00' then ['\\', '0']
  else if c = '\t' then ['\\', 't']
  else if c = '\r' then ['\\', 'r']
  else if c = '\n' then ['\\', 'n']
  else if c = '\\' || c = mark then ['\\', c]
  else if isUnprintable c then codePoint c
  else [c]

/-- Text between double quotes. -/
def quoteString (s : String) : String :=
  String.ofList ('"' :: (s.toList.flatMap (quotedChar '"') ++ ['"']))

/-- A character between single quotes. -/
def quoteChar (c : Char) : String :=
  String.ofList ('\x27' :: (quotedChar '\x27' c ++ ['\x27']))

end LabelFilter.Text
