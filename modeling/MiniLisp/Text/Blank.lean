/-! Blank characters: the White_Space property of Unicode, and texts without their outer blanks. -/

namespace MiniLisp

/-- A character with the White_Space property. -/
def isBlank (c : Char) : Bool :=
  let code := c.toNat
  (0x09 ≤ code && code ≤ 0x0d) || code == 0x20 || code == 0x85 || code == 0xa0 ||
    code == 0x1680 || (0x2000 ≤ code && code ≤ 0x200a) || code == 0x2028 || code == 0x2029 ||
    code == 0x202f || code == 0x205f || code == 0x3000

/-- A line feed or a carriage return, the two characters that close a comment. -/
def breaksLine (c : Char) : Bool := c == '\n' || c == '\r'

theorem isBlank_of_breaksLine {c : Char} (h : breaksLine c = true) : isBlank c = true := by
  simp only [breaksLine, Bool.or_eq_true, beq_iff_eq] at h
  rcases h with rfl | rfl <;> rfl

/-- The text without the blanks at its two ends. -/
def trimBlanks (text : List Char) : List Char :=
  ((text.dropWhile isBlank).reverse.dropWhile isBlank).reverse

end MiniLisp
