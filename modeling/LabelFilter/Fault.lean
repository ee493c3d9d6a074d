import LabelFilter.Symbol
import LabelFilter.Text.Bytes
import LabelFilter.Text.Quoted

/-!
# Why a text is no selector

A text fails to be a selector at one place: at a character that begins no lexeme (`StrayCharacter`), or at a token
or the end where the grammar wants something else (`UnexpectedSymbol`). A `Rejection` keeps the text beside the
fault, and shows the place with a caret.
-/

namespace LabelFilter

/-- A character that begins no lexeme. -/
structure StrayCharacter where
  /-- The bytes before the character. -/
  offset : Nat
  found : Char
  deriving DecidableEq, Repr

/-- A symbol that no selector has at this place. -/
structure UnexpectedSymbol where
  /-- The bytes before the symbol; at the end, the length of the text. -/
  offset : Nat
  /-- The tokens before the symbol. -/
  position : Nat
  found : Symbol
  /-- What could have stood here, without repetition. -/
  expected : List Symbol
  deriving DecidableEq, Repr

/-- The fault of a text that is no selector. -/
inductive SyntaxFault
  | stray (character : StrayCharacter)
  | unexpected (symbol : UnexpectedSymbol)
  deriving DecidableEq, Repr

def StrayCharacter.message (e : StrayCharacter) : String :=
  "unexpected character " ++ Text.quoteChar e.found ++ " at offset " ++ toString e.offset

def UnexpectedSymbol.message (e : UnexpectedSymbol) : String :=
  "unexpected " ++ e.found.describe ++ " at offset " ++ toString e.offset ++ ", expected " ++
    Symbol.describeAll e.expected

namespace SyntaxFault

def message : SyntaxFault → String
  | stray e => e.message
  | unexpected e => e.message

/-- The bytes of the text before the fault. -/
def offset : SyntaxFault → Nat
  | stray e => e.offset
  | unexpected e => e.offset

end SyntaxFault

/-- A text that is no selector, with its fault. -/
structure Rejection where
  input : String
  fault : SyntaxFault
  deriving DecidableEq, Repr

namespace Rejection

def message (r : Rejection) : String :=
  "invalid label selector " ++ Text.quoteString r.input ++ ": " ++ r.fault.message

/-- The characters before the fault; all of them when the offset is no position of a character. -/
def column (r : Rejection) : Nat :=
  ((Text.takeBytes? r.fault.offset r.input.toList).getD r.input.toList).length

/-- The fault, the text below it, and below that a caret as far in as the fault has characters before it. -/
def render (r : Rejection) : String :=
  r.fault.message ++ "\n  " ++ r.input ++ "\n  " ++ String.ofList (List.replicate r.column ' ') ++ "^"

end Rejection

end LabelFilter
