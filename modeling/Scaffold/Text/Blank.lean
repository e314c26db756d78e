/-!
# Blank characters

The characters that count as blanks: the ASCII blanks and separators, the next-line and no-break
characters, and the space separators of Unicode.
-/

namespace Scaffold.Text

/-- Ranges of code points of the blank characters, in increasing order. -/
def blankRanges : List (Nat × Nat) :=
  [(0x9, 0xd), (0x1c, 0x20), (0x85, 0x85), (0xa0, 0xa0), (0x1680, 0x1680), (0x2000, 0x200a),
    (0x2028, 0x2029), (0x202f, 0x202f), (0x205f, 0x205f), (0x3000, 0x3000)]

/-- A code point lies in one of the given ranges. -/
def inRanges (ranges : List (Nat × Nat)) (code : Nat) : Bool :=
  ranges.any fun range => range.1 ≤ code && code ≤ range.2

/-- Blanks separate words of prose and do not count as content of a line. -/
def isBlank (c : Char) : Bool :=
  inRanges blankRanges c.toNat

/-- Every blank of ASCII prose is a blank here. -/
theorem isBlank_of_isWhitespace {c : Char} (blank : c.isWhitespace = true) :
    isBlank c = true := by
  simp only [Char.isWhitespace, Bool.or_eq_true, decide_eq_true_eq] at blank
  rcases blank with ((rfl | rfl) | rfl) | rfl <;> decide

end Scaffold.Text
