import LabelFilter.Json.Number

/-!
# JSON values

An object holds its members in the order of their names, and one member at most under a name: `Json.insert` keeps
both, and a later member takes the place of an earlier one of its name. So where a function asks for some member
of a name, it asks for the member.
-/

namespace LabelFilter

inductive Json
  | null
  | boolean (value : Bool)
  | number (value : Json.Number)
  | string (value : String)
  | array (elements : List Json)
  | object (members : List (String × Json))
  deriving Inhabited

namespace Json

/-- The members with one more, in its place, or in the place of the member of its name. -/
def insert (name : String) (value : Json) : List (String × Json) → List (String × Json)
  | [] => [(name, value)]
  | m :: ms =>
    if name < m.1 then (name, value) :: m :: ms
    else if name = m.1 then (name, value) :: ms
    else m :: insert name value ms

/-- The object of a list of members, of which the last of a name counts. -/
def ofMembers (members : List (String × Json)) : Json :=
  object (members.foldl (fun ms m => insert m.1 m.2 ms) [])

/-- The object of string members. -/
def ofPairs (pairs : List (String × String)) : Json := ofMembers (pairs.map fun p => (p.1, string p.2))

/-- The members of an object; anything else has none. -/
def members : Json → List (String × Json)
  | object ms => ms
  | _ => []

/-- The value is an object with a member of this name. -/
def hasKey (name : String) (v : Json) : Bool := v.members.any fun m => m.1 == name

/-- Equality of values that hold no other values. -/
def sameScalar : Json → Json → Bool
  | null, null => true
  | boolean a, boolean b => a == b
  | number a, number b => a.same b
  | string a, string b => a == b
  | _, _ => false

mutual

/-- A document contains a pattern: an object has members that contain the members of the pattern, an array has
elements that contain the elements of the pattern, in any order and number, and other values are equal. -/
def contains (document : Json) : Json → Bool
  | object ps =>
    match document with
    | object ds => containsMembers ds ps
    | _ => false
  | array ps =>
    match document with
    | array ds => containsElements ds ps
    | _ => false
  | pattern => document.sameScalar pattern

/-- Some element contains each of the patterns. -/
def containsElements (ds : List Json) : List Json → Bool
  | [] => true
  | p :: ps => ds.any (fun d => contains d p) && containsElements ds ps

/-- The member of each name contains the pattern of that name. -/
def containsMembers (ds : List (String × Json)) : List (String × Json) → Bool
  | [] => true
  | (name, p) :: ps => ds.any (fun d => d.1 == name && contains d.2 p) && containsMembers ds ps

end

end Json

end LabelFilter
