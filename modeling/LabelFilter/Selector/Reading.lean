import LabelFilter.Fault
import LabelFilter.Grammar
import LabelFilter.Selector
import LabelFilter.Token.Lexeme

/-!
# Reading selectors

A text is cut into lexemes, the lexemes are placed as tokens, and the grammar reads the tokens. `Selector.ofText`
gives the fault of a text that is no selector, `Selector.ofText?` drops it, and `Selector.read` keeps the text
with it.
-/

namespace LabelFilter

/-- The tokens of a text, or its first character that begins no lexeme. -/
def tokenize (text : String) : Except StrayCharacter (List Token) :=
  match Lexeme.split text.toList with
  | (ls, []) => .ok (Lexeme.place 0 ls)
  | (ls, c :: _) => .error ⟨Text.byteLength (Lexeme.chars ls), c⟩

namespace Selector

/-- The selector that the tokens of a text of `length` bytes stand for. -/
def ofTokens (tokens : List Token) (length : Nat) : Except UnexpectedSymbol Selector :=
  match Grammar.parse tokens with
  | .ok es => .ok ⟨es⟩
  | .error stop =>
    let position := tokens.length - stop.rest.length
    match stop.rest with
    | [] => .error ⟨length, position, .ending, stop.expected⟩
    | t :: _ => .error ⟨t.offset, position, .token t.kind, stop.expected⟩

/-- The selector of a text. -/
def ofText (text : String) : Except SyntaxFault Selector :=
  match tokenize text with
  | .error e => .error (.stray e)
  | .ok tokens =>
    match ofTokens tokens (Text.byteLength text.toList) with
    | .error e => .error (.unexpected e)
    | .ok s => .ok s

def ofText? (text : String) : Option Selector := (ofText text).toOption

/-- The selector of a text, or its rejection. -/
def read (text : String) : Except Rejection Selector := (ofText text).mapError (⟨text, ·⟩)

end Selector

end LabelFilter
