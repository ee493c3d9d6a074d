import LabelFilter.Json

/-!
# Objects and what they contain

Members of different names make an object that holds them and nothing else, in some order (`ofMembers_perm`). To contain
an object with members is to contain the object of each of them (`contains_object_eq`); only the empty object asks for
more than its members do, since it asks for an object.
-/

namespace LabelFilter.Json

/-! ## Members -/

/-- A member of a new name is added to the others. -/
theorem insert_perm {name : String} {value : Json} {ms : List (String × Json)} (h : name ∉ ms.map Prod.fst) :
    (insert name value ms).Perm ((name, value) :: ms) := by
  induction ms with
  | nil => exact .refl _
  | cons m ms ih =>
    rw [List.map_cons, List.mem_cons, not_or] at h
    unfold insert
    split
    next => exact .refl _
    next =>
      rw [if_neg h.1]
      exact ((ih h.2).cons m).trans (.swap _ _ _)

theorem foldl_insert_perm {members ms : List (String × Json)} (h : ((members ++ ms).map Prod.fst).Nodup) :
    (members.foldl (fun ms m => insert m.1 m.2 ms) ms).Perm (members ++ ms) := by
  induction members generalizing ms with
  | nil => exact .refl _
  | cons m members ih =>
    rw [List.cons_append, List.map_cons, List.nodup_cons, List.map_append, List.mem_append, not_or] at h
    obtain ⟨⟨hmembers, hms⟩, hnodup⟩ := h
    have hinsert : (insert m.1 m.2 ms).Perm (m :: ms) := insert_perm hms
    have hperm : (members ++ insert m.1 m.2 ms).Perm (m :: (members ++ ms)) :=
      (hinsert.append_left members).trans List.perm_middle
    refine (ih ?_).trans hperm
    rw [(hperm.map Prod.fst).nodup_iff, List.map_cons, List.nodup_cons, List.map_append, List.mem_append]
    exact ⟨fun h => h.elim hmembers hms, hnodup⟩

/-- Members of different names are the members of their object. -/
theorem ofMembers_perm {members : List (String × Json)} (h : (members.map Prod.fst).Nodup) :
    ∃ ms, ofMembers members = object ms ∧ ms.Perm members := by
  refine ⟨_, rfl, ?_⟩
  have hperm := @foldl_insert_perm members [] (by rwa [List.append_nil])
  rwa [List.append_nil] at hperm

/-! ## Containment -/

theorem containsMembers_eq (ds ps : List (String × Json)) :
    containsMembers ds ps = ps.all fun p => ds.any fun d => d.1 == p.1 && d.2.contains p.2 := by
  induction ps with
  | nil => simp [containsMembers]
  | cons p ps ih =>
    obtain ⟨name, pattern⟩ := p
    rw [containsMembers, ih, List.all_cons]

/-- An object with a member is contained by objects only, which have a member for each of its members. -/
theorem contains_object_cons (document : Json) (p : String × Json) (ps : List (String × Json)) :
    document.contains (object (p :: ps)) =
      (p :: ps).all fun p => document.members.any fun d => d.1 == p.1 && d.2.contains p.2 := by
  cases document with
  | object ds => rw [contains, containsMembers_eq, members]
  | _ => simp [contains, members]

/-- To contain an object with members is to contain the object of each of them. -/
theorem contains_object_eq {ps : List (String × Json)} (h : ps ≠ []) (document : Json) :
    document.contains (object ps) = ps.all fun p => document.contains (object [p]) := by
  obtain ⟨p, ps, rfl⟩ := List.exists_cons_of_ne_nil h
  rw [contains_object_cons]
  congr 1
  funext p
  rw [contains_object_cons, List.all_cons, List.all_nil, Bool.and_true]

end LabelFilter.Json
