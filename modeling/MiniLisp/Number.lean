/-! Numbers are 64-bit two's complement words. An operation whose exact result is no word has no
result; nothing wraps. Division rounds toward the floor. In a text a number is a run of decimal
digits of any length, with or without a sign. -/

namespace MiniLisp.Number

/-- Two to the 63rd power: words lie below it and not below its negative. -/
def wordBound : Int := 9223372036854775808

/-- Two to the 127th power, which bounds numbers of 128 bits in the same way. -/
def doubleWordBound : Int := 170141183460469231731687303715884105728

/-- The word with the given value, if there is one. -/
def ofInt? (exact : Int) : Option Int64 :=
  if -wordBound ≤ exact ∧ exact < wordBound then some (Int64.ofInt exact) else none

theorem ofInt?_eq_some_iff {exact : Int} {word : Int64} :
    ofInt? exact = some word ↔ word.toInt = exact := by
  unfold ofInt?
  split
  · next range =>
    rw [Option.some.injEq, ← Int64.toInt_inj, Int64.toInt_ofInt_of_le range.1 range.2]
    exact eq_comm
  · next range =>
    constructor
    · simp
    · rintro rfl
      exact absurd ⟨word.le_toInt, word.toInt_lt⟩ range

/-- The sum of two words (`prim_add`). -/
def add? (left right : Int64) : Option Int64 := ofInt? (left.toInt + right.toInt)

/-- The difference of two words (`prim_sub`). -/
def sub? (left right : Int64) : Option Int64 := ofInt? (left.toInt - right.toInt)

/-- The product of two words (`prim_mul`). -/
def mul? (left right : Int64) : Option Int64 := ofInt? (left.toInt * right.toInt)

/-- The quotient rounded toward the floor, from the quotient rounded toward zero: one less if there is a
remainder and the signs differ (`floor_div`). -/
def floorQuotient (dividend divisor : Int) : Int :=
  let quotient := dividend.tdiv divisor
  if dividend.tmod divisor ≠ 0 ∧ (decide (dividend < 0) != decide (divisor < 0)) then quotient - 1
  else quotient

/-- The product of the words if every partial product, from the left, fits in 128 bits (`prim_div`). -/
def doubleProduct? (words : List Int64) : Option Int :=
  words.foldlM (fun partialProduct word =>
    let product := partialProduct * word.toInt
    if -doubleWordBound ≤ product ∧ product < doubleWordBound then some product else none) 1

/-- The floor of the dividend over the product of the divisors, none of which is zero (`prim_div`). A
product beyond 128 bits outweighs every word, so that only the sign of the quotient is left. -/
def quotientByProduct (dividend : Int64) (divisors : List Int64) : Int :=
  match doubleProduct? divisors with
  | some product => floorQuotient dividend.toInt product
  | none =>
    let negative := (divisors.filter fun divisor => divisor.toInt < 0).length % 2 == 1
    if dividend.toInt = 0 ∨ decide (dividend.toInt < 0) = negative then 0 else -1

/-- The value of a run of decimal digits. Only ASCII digits count, and there must be one. -/
def digits? (text : List Char) : Option Nat :=
  if text ≠ [] ∧ text.all Char.isDigit then
    some (Nat.ofDigitChars 10 text 0)
  else none

/-- The exact value of a text that spells a number (`looks_like_integer`, `parse_atom`). -/
def spelled? : List Char → Option Int
  | '-' :: digits => (fun magnitude => -(magnitude : Int)) <$> digits? digits
  | '+' :: digits => (fun magnitude => (magnitude : Int)) <$> digits? digits
  | digits => (fun magnitude => (magnitude : Int)) <$> digits? digits

end MiniLisp.Number
