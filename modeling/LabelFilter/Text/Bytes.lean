/-!
# Positions in bytes

Positions in a text count the bytes of its UTF-8 form. `byteLength` measures a text, and `takeBytes?` cuts one at
a position, which fails inside a character and beyond the end.
-/

namespace LabelFilter.Text

/-- The number of bytes of the UTF-8 form. -/
def byteLength : List Char → Nat
  | [] => 0
  | c :: cs => c.utf8Size + byteLength cs

@[simp] theorem byteLength_append (s t : List Char) : byteLength (s ++ t) = byteLength s + byteLength t := by
  induction s with
  | nil => simp [byteLength]
  | cons c s ih => simp only [List.cons_append, byteLength, ih]; omega

theorem byteLength_pos {cs : List Char} (h : cs ≠ []) : 0 < byteLength cs := by
  obtain ⟨c, cs, rfl⟩ := List.exists_cons_of_ne_nil h
  have hc : 0 < c.utf8Size := c.utf8Size_pos
  rw [byteLength]
  omega

/-- The characters of the first `n` bytes, when a character ends there. -/
def takeBytes? : Nat → List Char → Option (List Char)
  | 0, _ => some []
  | _ + 1, [] => none
  | n + 1, c :: cs => if c.utf8Size ≤ n + 1 then (takeBytes? (n + 1 - c.utf8Size) cs).map (c :: ·) else none

/-- Cutting at the end of a first part gives back that part. -/
theorem takeBytes?_append (s t : List Char) : takeBytes? (byteLength s) (s ++ t) = some s := by
  induction s with
  | nil => simp [byteLength, takeBytes?]
  | cons c s ih =>
    have hc : 0 < c.utf8Size := Char.utf8Size_pos c
    obtain ⟨n, hn⟩ : ∃ n, c.utf8Size + byteLength s = n + 1 := ⟨c.utf8Size + byteLength s - 1, by omega⟩
    have hs : n + 1 - c.utf8Size = byteLength s := by omega
    have hle : c.utf8Size ≤ n + 1 := by omega
    simp only [byteLength, hn, List.cons_append, takeBytes?, if_pos hle, hs, ih, Option.map_some]

end LabelFilter.Text
