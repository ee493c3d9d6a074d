import LabelFilter.Sql.Like

/-!
# What a pattern matches

`Sql.Like` tells which texts match a pattern of LIKE. A `%` can be matched in more ways than one; where a pattern begins
with any other character, or with an escaped one, there is one way to go on. So an escaped text in front of a pattern
matches itself and nothing else (`like_escape_append_iff`), whatever characters it has.
-/

namespace LabelFilter.Sql

/-- The text matches the pattern. -/
inductive Like : (pattern text : List Char) → Prop
  | nil : Like [] []
  | any {pattern text : List Char} (skipped : List Char) (rest : Like pattern text) :
      Like ('%' :: pattern) (skipped ++ text)
  | one {pattern text : List Char} (c : Char) (rest : Like pattern text) : Like ('_' :: pattern) (c :: text)
  | escaped {pattern text : List Char} (c : Char) (rest : Like pattern text) : Like ('\\' :: c :: pattern) (c :: text)
  | plain {pattern text : List Char} {c : Char} (literal : c ∉ ['%', '_', '\\']) (rest : Like pattern text) :
      Like (c :: pattern) (c :: text)

variable {pattern text : List Char}

theorem like_escaped_iff {c : Char} : Like ('\\' :: c :: pattern) text ↔ ∃ rest, text = c :: rest ∧ Like pattern rest := by
  constructor
  · intro h
    generalize hpattern : '\\' :: c :: pattern = whole at h
    cases h with
    | escaped d rest =>
      obtain ⟨rfl, rfl⟩ : c = d ∧ pattern = _ := by simpa using hpattern
      exact ⟨_, rfl, rest⟩
    | plain literal _ =>
      obtain ⟨rfl, -⟩ := List.cons.inj hpattern
      exact absurd (by simp) literal
    | _ => simp at hpattern
  · rintro ⟨rest, rfl, hrest⟩
    exact .escaped c hrest

theorem like_plain_iff {c : Char} (hc : c ∉ ['%', '_', '\\']) :
    Like (c :: pattern) text ↔ ∃ rest, text = c :: rest ∧ Like pattern rest := by
  constructor
  · intro h
    cases h with
    | plain _ rest => exact ⟨_, rfl, rest⟩
    | _ => exact absurd (by simp) hc
  · rintro ⟨rest, rfl, hrest⟩
    exact .plain hc hrest

/-- An escaped character matches itself. -/
theorem like_escape_cons_iff {c : Char} :
    Like ((if isWildcard c then ['\\', c] else [c]) ++ pattern) text ↔ ∃ rest, text = c :: rest ∧ Like pattern rest := by
  by_cases hc : isWildcard c
  · rw [if_pos hc]
    exact like_escaped_iff
  · rw [if_neg hc]
    refine like_plain_iff fun hmem => hc ?_
    simp only [List.mem_cons, List.not_mem_nil, or_false] at hmem
    rcases hmem with rfl | rfl | rfl <;> decide

/-- An escaped text matches itself, whatever comes behind it. -/
theorem like_escape_append_iff (s : String) :
    Like ((likeEscape s).toList ++ pattern) text ↔ ∃ rest, text = s.toList ++ rest ∧ Like pattern rest := by
  rw [likeEscape, String.toList_ofList]
  induction s.toList generalizing text with
  | nil => simp
  | cons c cs ih =>
    rw [List.flatMap_cons, List.append_assoc, like_escape_cons_iff]
    simp only [ih]
    constructor
    · rintro ⟨_, rfl, rest, rfl, hrest⟩
      exact ⟨rest, rfl, hrest⟩
    · rintro ⟨rest, rfl, hrest⟩
      exact ⟨cs ++ rest, rfl, rest, rfl, hrest⟩

/-- A `%` at the end matches anything. -/
theorem like_any (text : List Char) : Like ['%'] text := by
  have h := Like.any text .nil
  rwa [List.append_nil] at h

end LabelFilter.Sql
