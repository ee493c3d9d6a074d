import LabelFilter.Json
import Std.Data.HashMap
import Std.Data.TreeMap

/-!
# Label sets

All that a selector asks of a set of labels is whether a name is there and whether a name has a value. A list of
pairs answers by looking through it, a map by looking up, and a JSON object by its members, of which only strings
can equal a value.
-/

namespace LabelFilter

/-- The answers of a set of labels. -/
structure LabelSet where
  hasName : (name : String) → Bool
  hasPair : (name value : String) → Bool

namespace LabelSet

def ofPairs (pairs : List (String × String)) : LabelSet where
  hasName name := pairs.any fun p => p.1 == name
  hasPair name value := pairs.any fun p => p.1 == name && p.2 == value

def ofHashMap (map : Std.HashMap String String) : LabelSet where
  hasName name := map.contains name
  hasPair name value := map[name]? == some value

def ofTreeMap (map : Std.TreeMap String String) : LabelSet where
  hasName name := map.contains name
  hasPair name value := map[name]? == some value

/-- The value is this string. -/
def isString (value : String) : Json → Bool
  | .string s => s == value
  | _ => false

/-- The labels of the members of an object. -/
def ofMembers (members : List (String × Json)) : LabelSet where
  hasName name := members.any fun m => m.1 == name
  hasPair name value := members.any fun m => m.1 == name && isString value m.2

/-- The labels of a document. A document that is no object has none. -/
def ofJson (document : Json) : LabelSet := ofMembers document.members

end LabelSet

end LabelFilter
