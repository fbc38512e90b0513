/-! Classes of characters, given by ranges of code points. -/

namespace MiniLisp

/-- Whether the code point of a character lies in one of some closed ranges. -/
def liesIn (ranges : List (Nat × Nat)) (c : Char) : Bool :=
  ranges.any fun range => range.1 ≤ c.toNat && c.toNat ≤ range.2

end MiniLisp
