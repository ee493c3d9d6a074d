import LabelFilter.Json
import LabelFilter.Proofs.LastPairs

/-!
# Objects and the lists they are made of

An object that is made of a list of members is sorted by name (`sorted_members_ofMembers`). `Json.insert` relies on
that: it looks no further than to the first greater name. So a member takes the place of an earlier one of its name
and of no other (`mem_insert`), and the members of the object are the last ones of the list (`overwrites_members`).
-/

namespace LabelFilter.Json

/-- The names of the members ascend. -/
def Sorted (ms : List (String × Json)) : Prop := ms.Pairwise fun m n => m.1 < n.1

variable {name : String} {value : Json} {ms : List (String × Json)}

/-- A member that is put in takes the place of the one of its name. -/
theorem mem_insert (h : Sorted ms) (m : String × Json) :
    m ∈ insert name value ms ↔ m = (name, value) ∨ m.1 ≠ name ∧ m ∈ ms := by
  induction ms with
  | nil => simp [insert]
  | cons n ms ih =>
    obtain ⟨hn, hms⟩ := List.pairwise_cons.mp h
    unfold insert
    split
    next hlt =>
      -- all names from here on are greater
      have hnames : ∀ k ∈ n :: ms, k.1 ≠ name := by
        refine List.forall_mem_cons.mpr ⟨(String.ne_of_lt hlt).symm, fun k hk => ?_⟩
        exact (String.ne_of_lt (String.lt_trans hlt (hn k hk))).symm
      rw [List.mem_cons]
      exact or_congr_right ⟨fun hm => ⟨hnames m hm, hm⟩, And.right⟩
    next =>
      split
      next heq =>
        have hnames : ∀ k ∈ ms, k.1 ≠ name := fun k hk => (String.ne_of_lt (heq ▸ hn k hk)).symm
        rw [List.mem_cons, List.mem_cons]
        refine or_congr_right ⟨fun hm => ⟨hnames m hm, .inr hm⟩, ?_⟩
        rintro ⟨hne, rfl | hm⟩
        · exact absurd heq.symm hne
        · exact hm
      next hne =>
        rw [List.mem_cons, List.mem_cons, ih hms]
        constructor
        · rintro (rfl | rfl | ⟨hname, hm⟩)
          · exact .inr ⟨Ne.symm hne, .inl rfl⟩
          · exact .inl rfl
          · exact .inr ⟨hname, .inr hm⟩
        · rintro (rfl | ⟨hname, rfl | hm⟩)
          · exact .inr (.inl rfl)
          · exact .inl rfl
          · exact .inr (.inr ⟨hname, hm⟩)

theorem sorted_insert (h : Sorted ms) : Sorted (insert name value ms) := by
  induction ms with
  | nil => exact List.pairwise_singleton _ _
  | cons n ms ih =>
    obtain ⟨hn, hms⟩ := List.pairwise_cons.mp h
    unfold insert
    split
    next hlt =>
      refine List.pairwise_cons.mpr ⟨List.forall_mem_cons.mpr ⟨hlt, fun k hk => ?_⟩, h⟩
      exact String.lt_trans hlt (hn k hk)
    next hnot =>
      split
      next heq => exact List.pairwise_cons.mpr ⟨fun k hk => heq ▸ hn k hk, hms⟩
      next hne =>
        refine List.pairwise_cons.mpr ⟨fun k hk => ?_, ih hms⟩
        rcases (mem_insert hms k).mp hk with rfl | ⟨_, hmem⟩
        · exact Std.lt_of_le_of_ne (String.not_lt.mp hnot) (Ne.symm hne)
        · exact hn k hmem

theorem members_ofMembers_concat (members : List (String × Json)) (m : String × Json) :
    (ofMembers (members ++ [m])).members = insert m.1 m.2 (ofMembers members).members := by
  rw [ofMembers, List.foldl_append]
  rfl

theorem sorted_members_ofMembers (members : List (String × Json)) : Sorted (ofMembers members).members := by
  induction members using List.reverseRecOn with
  | nil => exact List.Pairwise.nil
  | append_singleton members m ih =>
    rw [members_ofMembers_concat]
    exact sorted_insert ih

/-- The members of an object overwrite one another. -/
theorem overwrites_members : Overwrites fun members m => m ∈ (ofMembers members).members where
  nil _ := List.not_mem_nil
  concat members m n := by
    rw [members_ofMembers_concat]
    exact mem_insert (sorted_members_ofMembers members) n

end LabelFilter.Json
