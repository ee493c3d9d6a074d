import LabelFilter.Json

/-!
# JSON text

The compact form: no blanks, members in their order, and in strings only the quote, the backslash and the
characters below the space are escaped.
-/

namespace LabelFilter.Json

/-- One character as it stands in a string. -/
def escapeChar (c : Char) : List Char :=
  if c = '"' then ['\\', '"']
  else if c = '\\' then ['\\', '\\']
  else if c = '\x08' then ['\\', 'b']
  else if c = '\x0C' then ['\\', 'f']
  else if c = '\n' then ['\\', 'n']
  else if c = '\r' then ['\\', 'r']
  else if c = '\t' then ['\\', 't']
  else if c.toNat < 0x20 then
    ['\\', 'u', '0', '0', Nat.digitChar (c.toNat / 16), Nat.digitChar (c.toNat % 16)]
  else [c]

/-- A string between its quotes. -/
def stringText (s : String) : String := String.ofList ('"' :: (s.toList.flatMap escapeChar ++ ['"']))

mutual

def text : Json → String
  | null => "null"
  | boolean true => "true"
  | boolean false => "false"
  | number n => n.text
  | string s => stringText s
  | array es => "[" ++ ",".intercalate (elementTexts es) ++ "]"
  | object ms => "\x7b" ++ ",".intercalate (memberTexts ms) ++ "\x7d"

def elementTexts : List Json → List String
  | [] => []
  | e :: es => e.text :: elementTexts es

def memberTexts : List (String × Json) → List String
  | [] => []
  | (name, v) :: ms => (stringText name ++ ":" ++ v.text) :: memberTexts ms

end

end LabelFilter.Json
