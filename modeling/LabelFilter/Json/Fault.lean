import LabelFilter.Fault
import LabelFilter.Json.Text

/-!
# Why a JSON text cannot be taken in

A text is read from left to right, and its first fault is the one that counts: the text ends too early, it is not
JSON, or it is JSON of another form than the one asked for (`Mismatch`).
-/

namespace LabelFilter.Json

/-- A value of the wrong type, as far as it has been read. -/
inductive Found
  | null
  | boolean (value : Bool)
  | number (value : Number)
  | string (value : String)
  | sequence
  | map
  deriving DecidableEq, Repr

def Found.describe : Found → String
  | null => "null"
  | boolean true => "boolean `true`"
  | boolean false => "boolean `false`"
  | number (.integer n) => "integer `" ++ toString n ++ "`"
  | number (.double x) => "floating point `" ++ doubleText x ++ "`"
  | string s => "string " ++ Text.quoteString s
  | sequence => "sequence"
  | map => "map"

/-- JSON of another form than the one asked for. -/
inductive Mismatch
  | wrongType (found : Found) (wanted : String)
  | missingField (name : String)
  | repeatedField (name : String)
  | unknownField (name : String) (known : List String)
  | unknownVariant (name : String) (known : List String)
  /-- A list of fields that ends before all required ones have come. -/
  | tooShort (length : Nat) (wanted : String)
  /-- A string that is no selector. -/
  | rejected (rejection : Rejection)
  deriving DecidableEq, Repr

/-- The known names in words: one, one or the other, or one of several. -/
def describeKnown : List String → String
  | [] => "nothing"
  | [a] => "`" ++ a ++ "`"
  | [a, b] => "`" ++ a ++ "` or `" ++ b ++ "`"
  | names => "one of " ++ ", ".intercalate (names.map fun n => "`" ++ n ++ "`")

def Mismatch.message : Mismatch → String
  | wrongType found wanted => "invalid type: " ++ found.describe ++ ", expected " ++ wanted
  | missingField name => "missing field `" ++ name ++ "`"
  | repeatedField name => "duplicate field `" ++ name ++ "`"
  | unknownField name known => "unknown field `" ++ name ++ "`, expected " ++ describeKnown known
  | unknownVariant name known => "unknown variant `" ++ name ++ "`, expected " ++ describeKnown known
  | tooShort length wanted => "invalid length " ++ toString length ++ ", expected " ++ wanted
  | rejected r => r.message

inductive Fault
  /-- The text ends before the value does. -/
  | cutOff
  /-- The text is not JSON. -/
  | malformed
  /-- The text is JSON of another form. -/
  | unfit (mismatch : Mismatch)
  deriving DecidableEq, Repr

end LabelFilter.Json
