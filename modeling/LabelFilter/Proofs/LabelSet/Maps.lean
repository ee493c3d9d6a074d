import LabelFilter.Proofs.Json.Objects
import LabelFilter.Proofs.Matching

/-!
# Label sets made of pairs

A list of pairs can be used as a set of labels as it is, or it can be made into a map or an object first. As it is, it
has every pair of the list, in whatever order and however often they stand there (`ofPairs_congr`). In maps and
objects a pair takes the place of the earlier ones of its name (`overwrites_hashMap`, `overwrites_treeMap`,
`Json.overwrites_members`), so they have the last pairs only.

Hence all of them satisfy the same views as the list of the last pairs (`View.accepts_lastPairs`). They differ from
the list itself where a name comes up with two values: the list accepts comparisons with either value.
-/

namespace LabelFilter

/-! ## What counts in a map -/

theorem overwrites_hashMap : Overwrites fun pairs (q : String × String) =>
    (Std.HashMap.ofList pairs)[q.1]? = some q.2 := by
  refine .of_lookUp (fun pairs name => (Std.HashMap.ofList pairs)[name]?) (fun name => by simp) ?_
  intro pairs p name
  rw [Std.HashMap.ofList_eq_insertMany_empty, Std.HashMap.insertMany_append, Std.HashMap.insertMany_list_singleton,
    Std.HashMap.getElem?_insert, ← Std.HashMap.ofList_eq_insertMany_empty]
  simp only [beq_iff_eq]

theorem overwrites_treeMap : Overwrites fun pairs (q : String × String) =>
    (Std.TreeMap.ofList pairs : Std.TreeMap String String)[q.1]? = some q.2 := by
  refine .of_lookUp (fun pairs name => (Std.TreeMap.ofList pairs : Std.TreeMap String String)[name]?)
    (fun name => by simp) ?_
  intro pairs p name
  rw [Std.TreeMap.ofList_eq_insertMany_empty, Std.TreeMap.insertMany_append, Std.TreeMap.insertMany_list_singleton,
    Std.TreeMap.getElem?_insert, ← Std.TreeMap.ofList_eq_insertMany_empty]
  simp only [Std.compare_eq_iff_eq]

namespace LabelSet

/-! ## Sets of the same labels -/

/-- The order of the pairs and their repetition make no difference. -/
theorem ofPairs_congr {pairs others : List (String × String)} (h : ∀ p, p ∈ pairs ↔ p ∈ others) :
    ofPairs pairs = ofPairs others := by
  simp only [ofPairs, any_eq_of_mem_iff h]

theorem ofMembers_congr {members others : List (String × Json)} (h : ∀ m, m ∈ members ↔ m ∈ others) :
    ofMembers members = ofMembers others := by
  simp only [ofMembers, any_eq_of_mem_iff h]

/-- Looking up names is looking through the pairs that are found. -/
theorem ofPairs_eq_of_lookUp {get : String → Option String} {pairs : List (String × String)}
    (h : ∀ q : String × String, get q.1 = some q.2 ↔ q ∈ pairs) :
    ofPairs pairs = ⟨fun name => (get name).isSome, fun name value => get name == some value⟩ := by
  have hname : ∀ name, (pairs.any fun p => p.1 == name) = (get name).isSome := by
    intro name
    rw [Bool.eq_iff_iff, List.any_eq_true, Option.isSome_iff_exists]
    constructor
    · rintro ⟨p, hp, heq⟩
      exact ⟨p.2, beq_iff_eq.mp heq ▸ (h p).mpr hp⟩
    · rintro ⟨value, hvalue⟩
      exact ⟨(name, value), (h (name, value)).mp hvalue, beq_self_eq_true name⟩
  have hpair : ∀ name value, (pairs.any fun p => p.1 == name && p.2 == value) = (get name == some value) := by
    intro name value
    rw [Bool.eq_iff_iff, beq_iff_eq, h (name, value), List.any_eq_true]
    constructor
    · rintro ⟨p, hp, heq⟩
      rw [Bool.and_eq_true, beq_iff_eq, beq_iff_eq] at heq
      rwa [← heq.1, ← heq.2]
    · intro hp
      exact ⟨(name, value), hp, by rw [beq_self_eq_true, beq_self_eq_true, Bool.and_self]⟩
  simp only [ofPairs, hname, hpair]

theorem ofHashMap_ofList (pairs : List (String × String)) :
    ofHashMap (.ofList pairs) = ofPairs (lastPairs pairs) := by
  rw [ofPairs_eq_of_lookUp (overwrites_hashMap.iff_mem_lastPairs pairs), ofHashMap]
  simp only [Std.HashMap.contains_eq_isSome_getElem?]

theorem ofTreeMap_ofList (pairs : List (String × String)) :
    ofTreeMap (.ofList pairs) = ofPairs (lastPairs pairs) := by
  rw [ofPairs_eq_of_lookUp (overwrites_treeMap.iff_mem_lastPairs pairs), ofTreeMap]
  simp only [Std.TreeMap.contains_eq_isSome_getElem?]

/-- Members with strings are looked through as pairs. -/
theorem ofMembers_strings (pairs : List (String × String)) :
    ofMembers (pairs.map fun p => (p.1, .string p.2)) = ofPairs pairs := by
  simp only [ofMembers, List.any_map]
  rfl

theorem ofMembers_ofPairs (pairs : List (String × String)) :
    ofMembers (Json.ofPairs pairs).members = ofPairs (lastPairs pairs) := by
  rw [← ofMembers_strings, ← lastPairs_map]
  exact ofMembers_congr (Json.overwrites_members.iff_mem_lastPairs _)

end LabelSet

/-! ## Matching -/

/-- **Maps and objects of a list of pairs answer as its last pairs.** A view is satisfied alike by the hash map, the
tree map, the members of the object and the object as a document that are made of a list, and by the pairs of the list
that no later pair of their name follows. A list of pairs satisfies a view by the pairs that are in it, in any order
and number. -/
theorem View.accepts_lastPairs (v : View) :
    (∀ pairs : List (String × String),
      v.accepts (.ofHashMap (.ofList pairs)) = v.accepts (.ofPairs (lastPairs pairs)) ∧
      v.accepts (.ofTreeMap (.ofList pairs)) = v.accepts (.ofPairs (lastPairs pairs)) ∧
      v.accepts (.ofMembers (Json.ofPairs pairs).members) = v.accepts (.ofPairs (lastPairs pairs)) ∧
      v.accepts (.ofJson (Json.ofPairs pairs)) = v.accepts (.ofPairs (lastPairs pairs))) ∧
    ∀ pairs others : List (String × String), (∀ p, p ∈ pairs ↔ p ∈ others) →
      v.accepts (.ofPairs pairs) = v.accepts (.ofPairs others) := by
  constructor
  · intro pairs
    have hmembers := congrArg v.accepts (LabelSet.ofMembers_ofPairs pairs)
    exact ⟨congrArg v.accepts (LabelSet.ofHashMap_ofList pairs), congrArg v.accepts (LabelSet.ofTreeMap_ofList pairs),
      hmembers, hmembers⟩
  · intro pairs others h
    exact congrArg v.accepts (LabelSet.ofPairs_congr h)

/-- A name with two values, one of them twice. -/
def overwritten : List (String × String) := [("env", "dev"), ("env", "prod"), ("tier", ""), ("env", "dev")]

theorem View.accepts_lastPairs_overwritten :
    (∀ p, p ∈ overwritten ↔ p ∈ [("tier", ""), ("env", "prod"), ("env", "dev")]) ∧
    (View.list [.exact "env" "dev", .exact "env" "prod", .absent "debug"]).accepts (.ofPairs overwritten) =
      (View.list [.exact "env" "dev", .exact "env" "prod", .absent "debug"]).accepts
        (.ofPairs [("tier", ""), ("env", "prod"), ("env", "dev")]) ∧
    (View.list [.notExact "env" "prod", .exact "tier" ""]).accepts (.ofHashMap (.ofList overwritten)) =
      (View.list [.notExact "env" "prod", .exact "tier" ""]).accepts (.ofPairs [("tier", ""), ("env", "dev")]) := by
  have hsame : ∀ p, p ∈ overwritten ↔ p ∈ [("tier", ""), ("env", "prod"), ("env", "dev")] := by
    intro p
    simp only [overwritten, List.mem_cons, List.not_mem_nil, or_false]
    tauto
  refine ⟨hsame, (View.accepts_lastPairs _).2 _ _ hsame, ?_⟩
  exact ((View.accepts_lastPairs _).1 overwritten).1

end LabelFilter
