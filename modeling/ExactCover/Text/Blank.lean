/-!
# White space

Two classes of blank characters and the trimming of text. `isWhiteSpace` is the White_Space property
of Unicode: it ends a word and is what trimming removes. `isSpacing` is the smaller class of the four
characters that may stand between the words of an instance: every other white space character ends a
word but is not itself allowed there.
-/

namespace ExactCover.Text

/-- The code point ranges, both ends included, of the Unicode property White_Space. -/
def whiteSpaceRanges : List (Nat × Nat) :=
  [(0x9, 0xd), (0x20, 0x20), (0x85, 0x85), (0xa0, 0xa0), (0x1680, 0x1680), (0x2000, 0x200a),
   (0x2028, 0x2029), (0x202f, 0x202f), (0x205f, 0x205f), (0x3000, 0x3000)]

/-- A character with the Unicode property White_Space. -/
def isWhiteSpace (c : Char) : Bool :=
  whiteSpaceRanges.any fun (lo, hi) => lo ≤ c.toNat && c.toNat ≤ hi

/-- A space, tab, carriage return or line feed. -/
def isSpacing (c : Char) : Bool :=
  c == ' ' || c == '\t' || c == '\r' || c == '\n'

/-- A space or tab, the blanks that stay on a line. -/
def isInlineSpacing (c : Char) : Bool :=
  c == ' ' || c == '\t'

/-- The text without its trailing white space. -/
def trimEnd (cs : List Char) : List Char :=
  (cs.reverse.dropWhile isWhiteSpace).reverse

/-- The text without its leading and trailing white space. -/
def trim (cs : List Char) : List Char :=
  trimEnd (cs.dropWhile isWhiteSpace)

/-- What core counts as white space is white space here too. -/
theorem isWhiteSpace_of_isWhitespace {c : Char} (h : c.isWhitespace = true) :
    isWhiteSpace c = true := by
  simp only [Char.isWhitespace, Bool.or_eq_true, decide_eq_true_eq] at h
  rcases h with ((rfl | rfl) | rfl) | rfl <;> decide

/-- Spacing is white space. -/
theorem isWhiteSpace_of_isSpacing {c : Char} (h : isSpacing c = true) : isWhiteSpace c = true := by
  simp only [isSpacing, Bool.or_eq_true, beq_iff_eq] at h
  rcases h with ((rfl | rfl) | rfl) | rfl <;> decide

end ExactCover.Text
