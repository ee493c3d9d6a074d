/-!
# Classes of characters

A class of characters is a list of ranges of code points, both ends included. Two classes matter to
label selectors: blanks separate lexemes, and control characters belong to no lexeme at all.
-/

namespace LabelFilter.Text

/-- The code point of `c` lies in one of the ranges. -/
def inRanges (ranges : List (Nat × Nat)) (c : Char) : Bool :=
  ranges.any fun r => r.1 ≤ c.toNat && c.toNat ≤ r.2

/-- The characters with the Unicode property `White_Space`. -/
def blankRanges : List (Nat × Nat) :=
  [(0x09, 0x0D), (0x20, 0x20), (0x85, 0x85), (0xA0, 0xA0), (0x1680, 0x1680), (0x2000, 0x200A), (0x2028, 0x2029),
   (0x202F, 0x202F), (0x205F, 0x205F), (0x3000, 0x3000)]

/-- The general category `Cc`. -/
def controlRanges : List (Nat × Nat) := [(0x00, 0x1F), (0x7F, 0x9F)]

/-- A blank separates lexemes: any whitespace character of Unicode, not only those of ASCII. -/
def isBlank (c : Char) : Bool := inRanges blankRanges c

def isControl (c : Char) : Bool := inRanges controlRanges c

end LabelFilter.Text
