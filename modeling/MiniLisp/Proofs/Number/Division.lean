import Mathlib.Algebra.BigOperators.Ring.List
import Mathlib.Data.Rat.Floor
import MiniLisp.Eval.Primitive

/-! Division. The quotient of a dividend and the product of some divisors is the mathematical floor,
however large the product is. Within 128 bits it comes from the quotient rounded toward zero; a product
beyond them is larger than every word, and then the signs decide between zero and minus one. -/

namespace MiniLisp

namespace Number

/-- The exact product of some words. -/
def exactProduct (words : List Int64) : Int := (words.map Int64.toInt).prod

/-- The mathematical floor of a dividend over the exact product of some divisors. -/
def exactQuotient (dividend : Int64) (divisors : List Int64) : Int :=
  ⌊(dividend.toInt : ℚ) / (exactProduct divisors : ℚ)⌋

theorem exactProduct_cons (word : Int64) (words : List Int64) :
    exactProduct (word :: words) = word.toInt * exactProduct words :=
  List.prod_cons

theorem exactProduct_ne_zero (nonzero : 0 ∉ words) : exactProduct words ≠ 0 := by
  intro zero
  obtain ⟨word, member, same⟩ := List.mem_map.1 (List.prod_eq_zero_iff.1 zero)
  have isZero : word = 0 := Int64.toInt_inj.1 same
  exact nonzero (isZero ▸ member)

/-! ### The floor from a remainder -/

/-- The quotient that leaves a remainder with the sign of the divisor is the floor. -/
theorem floor_eq_of_remainder {dividend divisor quotient : Int} (remainder : Int)
    (whole : dividend = quotient * divisor + remainder)
    (small : 0 ≤ remainder ∧ remainder < divisor ∨ divisor < remainder ∧ remainder ≤ 0) :
    ⌊(dividend : ℚ) / (divisor : ℚ)⌋ = quotient := by
  have nonzero : (divisor : ℚ) ≠ 0 := by
    apply Int.cast_ne_zero.2
    omega
  have parts : (dividend : ℚ) / divisor = quotient + remainder / divisor := by
    rw [whole]
    push_cast
    field_simp
  rw [parts, Int.floor_intCast_add]
  have fraction : ⌊(remainder : ℚ) / divisor⌋ = 0 := by
    rw [Int.floor_eq_zero_iff, Set.mem_Ico]
    rcases small with ⟨positive, below⟩ | ⟨above, negative⟩
    · have bound : (0 : ℚ) < divisor := by exact_mod_cast positive.trans_lt below
      refine ⟨div_nonneg (by exact_mod_cast positive) bound.le, ?_⟩
      rw [div_lt_one bound]
      exact_mod_cast below
    · have bound : (divisor : ℚ) < 0 := by exact_mod_cast above.trans_le negative
      refine ⟨div_nonneg_of_nonpos (by exact_mod_cast negative) bound.le, ?_⟩
      rw [div_lt_one_of_neg bound]
      exact_mod_cast above
  rw [fraction, add_zero]

/-- The remainder of the quotient rounded toward zero has the sign of the dividend and is smaller than
the divisor. -/
theorem tmod_bounds (dividend : Int) (nonzero : divisor ≠ 0) :
    (0 ≤ dividend → 0 ≤ dividend.tmod divisor) ∧ (dividend < 0 → dividend.tmod divisor ≤ 0) ∧
      (dividend.tmod divisor).natAbs < divisor.natAbs := by
  refine ⟨Int.tmod_nonneg divisor, fun negative => ?_, ?_⟩
  · have positive := Int.tmod_nonneg divisor (a := -dividend) (by omega)
    rw [Int.neg_tmod] at positive
    omega
  · have smaller := Nat.mod_lt dividend.natAbs (Int.natAbs_pos.2 nonzero)
    rwa [← Int.natAbs_tmod] at smaller

theorem floorQuotient_eq_floor (dividend : Int) (nonzero : divisor ≠ 0) :
    floorQuotient dividend divisor = ⌊(dividend : ℚ) / (divisor : ℚ)⌋ := by
  obtain ⟨positive, negative, smaller⟩ := tmod_bounds dividend nonzero
  have whole := Int.tdiv_mul_add_tmod dividend divisor
  symm
  unfold floorQuotient
  split
  · next corrected =>
    -- One step further from zero, the remainder takes on the sign of the divisor.
    apply floor_eq_of_remainder (dividend.tmod divisor + divisor)
    · rw [sub_mul, one_mul]
      omega
    · simp only [bne_iff_ne, ne_eq, decide_eq_decide] at corrected
      omega
  · next exact =>
    apply floor_eq_of_remainder _ whole.symm
    simp only [bne_iff_ne, ne_eq, decide_eq_decide, not_and, not_not] at exact
    omega

/-! ### Products beyond 128 bits -/

/-- A number of 128 bits, if it is one. -/
def ofDouble? (exact : Int) : Option Int :=
  if -doubleWordBound ≤ exact ∧ exact < doubleWordBound then some exact else none

theorem ofDouble?_eq_some_iff {exact double : Int} : ofDouble? exact = some double ↔
    double = exact ∧ -doubleWordBound ≤ exact ∧ exact < doubleWordBound := by
  unfold ofDouble?
  rw [Option.ite_none_right_eq_some, Option.some.injEq, eq_comm, and_comm]

theorem ofDouble?_of_natAbs_lt (small : (exact.natAbs : Int) < doubleWordBound) :
    ofDouble? exact = some exact := by
  rw [ofDouble?_eq_some_iff]
  omega

theorem le_natAbs_of_ofDouble? (absent : ofDouble? exact = none) :
    doubleWordBound ≤ exact.natAbs := by
  by_contra small
  rw [ofDouble?_of_natAbs_lt (not_le.1 small)] at absent
  cases absent

/-- The product of a partial product and one more factor. -/
def doubleStep? (partialProduct : Int) (word : Int64) : Option Int :=
  ofDouble? (partialProduct * word.toInt)

/-- A product that stays within 128 bits is exact. -/
theorem eq_of_foldlM_doubleStep? (found : words.foldlM doubleStep? start = some product)
    (fits : ofDouble? start = some start) :
    product = start * exactProduct words ∧ ofDouble? product = some product := by
  induction words generalizing start with
  | nil =>
    cases found
    exact ⟨by simp [exactProduct], fits⟩
  | cons word words ih =>
    rw [List.foldlM_cons, Option.bind_eq_bind, Option.bind_eq_some_iff] at found
    obtain ⟨further, step, found⟩ := found
    obtain ⟨rfl, -⟩ := ofDouble?_eq_some_iff.1 step
    rw [exactProduct_cons, ← mul_assoc]
    exact ih found step

theorem eq_of_doubleProduct? (found : doubleProduct? words = some product) :
    product = exactProduct words ∧ ofDouble? product = some product := by
  have all := eq_of_foldlM_doubleStep? found rfl
  rwa [one_mul] at all

/-- A product that leaves 128 bits on the way does not come back to smaller numbers. -/
theorem le_natAbs_mul_exactProduct (nonzero : 0 ∉ words)
    (absent : words.foldlM doubleStep? start = none) :
    doubleWordBound ≤ (start * exactProduct words).natAbs := by
  induction words generalizing start with
  | nil => cases absent
  | cons word words ih =>
    obtain ⟨-, others⟩ := not_or.1 (List.mem_cons.not.1 nonzero)
    rw [List.foldlM_cons, Option.bind_eq_bind] at absent
    rw [exactProduct_cons, ← mul_assoc]
    cases step : doubleStep? start word with
    | some further =>
      rw [step] at absent
      obtain ⟨rfl, -⟩ := ofDouble?_eq_some_iff.1 step
      exact ih others absent
    | none =>
      have beyond := le_natAbs_of_ofDouble? step
      have factor := Int.natAbs_pos.2 (exactProduct_ne_zero others)
      rw [Int.natAbs_mul]
      apply beyond.trans
      exact_mod_cast Nat.le_mul_of_pos_right _ factor

/-- A product is negative if an odd number of its factors are. -/
theorem exactProduct_neg_iff (nonzero : 0 ∉ words) :
    exactProduct words < 0 ↔ (words.filter fun word => word.toInt < 0).length % 2 = 1 := by
  induction words with
  | nil => simp [exactProduct]
  | cons word words ih =>
    obtain ⟨first, others⟩ := not_or.1 (List.mem_cons.not.1 nonzero)
    have apart : word.toInt ≠ 0 := fun zero => first (Int64.toInt_inj.1 zero).symm
    have rest := exactProduct_ne_zero others
    have sign := ih others
    rw [exactProduct_cons, mul_neg_iff, List.filter_cons]
    by_cases negative : word.toInt < 0
    · rw [if_pos (decide_eq_true negative), List.length_cons]
      omega
    · rw [if_neg (by rwa [decide_eq_true_iff])]
      omega

/-! ### The quotient -/

theorem quotientByProduct_eq_exactQuotient (dividend : Int64) (nonzero : 0 ∉ divisors) :
    quotientByProduct dividend divisors = exactQuotient dividend divisors := by
  unfold quotientByProduct
  split
  · next product found =>
    obtain ⟨rfl, -⟩ := eq_of_doubleProduct? found
    exact floorQuotient_eq_floor dividend.toInt (exactProduct_ne_zero nonzero)
  · next absent =>
    have beyond := le_natAbs_mul_exactProduct nonzero absent
    have above := dividend.le_toInt
    have below := dividend.toInt_lt
    rw [one_mul] at beyond
    unfold doubleWordBound at beyond
    have signs : decide (dividend.toInt < 0) =
        ((divisors.filter fun divisor => divisor.toInt < 0).length % 2 == 1) ↔
          (dividend.toInt < 0 ↔ exactProduct divisors < 0) := by
      rw [Bool.eq_iff_iff, decide_eq_true_iff, beq_iff_eq, exactProduct_neg_iff nonzero]
    simp only [signs]
    symm
    split
    · next same =>
      apply floor_eq_of_remainder dividend.toInt <;> omega
    · next other =>
      apply floor_eq_of_remainder (dividend.toInt + exactProduct divisors) <;> omega

/-! ### Operations on 128 bits -/

/-- The floor from operations on 128 bits. There is none if the divisor is zero, or if the result of
an operation does not fit. A remainder is refused where the quotient does not fit. -/
def doubleQuotient? (dividend divisor : Int) : Option Int :=
  if divisor = 0 then none
  else do
    let quotient ← ofDouble? (dividend.tdiv divisor)
    let remainder ← ofDouble? (dividend.tmod divisor)
    if remainder ≠ 0 ∧ (decide (dividend < 0) != decide (divisor < 0)) then
      ofDouble? (quotient - 1)
    else some quotient

/-- With a word for dividend no operation on 128 bits overflows. -/
theorem doubleQuotient?_eq_floorQuotient (dividend : Int64) (nonzero : divisor ≠ 0) :
    doubleQuotient? dividend.toInt divisor = some (floorQuotient dividend.toInt divisor) := by
  have above := dividend.le_toInt
  have below := dividend.toInt_lt
  have quotientSmall := Int.natAbs_tdiv_le_natAbs dividend.toInt divisor
  have remainderSmall : (dividend.toInt.tmod divisor).natAbs ≤ dividend.toInt.natAbs := by
    rw [Int.natAbs_tmod]
    exact Nat.mod_le _ _
  have fits : ∀ exact : Int, exact.natAbs ≤ dividend.toInt.natAbs + 1 →
      ofDouble? exact = some exact := by
    intro exact small
    apply ofDouble?_of_natAbs_lt
    unfold doubleWordBound
    omega
  have quotientFits := fits (dividend.toInt.tdiv divisor) (by omega)
  have remainderFits := fits (dividend.toInt.tmod divisor) (by omega)
  have correctedFits := fits (dividend.toInt.tdiv divisor - 1) (by omega)
  rw [doubleQuotient?, if_neg nonzero, quotientFits, remainderFits]
  simp only [Option.bind_eq_bind, Option.bind_some, correctedFits, floorQuotient]
  split <;> rfl

end Number

/-! ### The primitive -/

namespace Primitive

open Value Number

/-- What a division must come to: an error if a divisor is zero, and otherwise the exact quotient if
it is a word, and an error if it is none. -/
structure Divides (dividend : Int64) (divisors : List Int64) (outcome : Except EvalError Value) :
    Prop where
  zero : outcome = .error .divisionByZero ↔ 0 ∈ divisors
  value : 0 ∉ divisors → ∀ word : Int64,
    (outcome = .ok (num word) ↔ word.toInt = exactQuotient dividend divisors)
  overflow : 0 ∉ divisors →
    (outcome = .error (.overflow div) ↔ ∀ word : Int64, word.toInt ≠ exactQuotient dividend divisors)

theorem divide_divides (dividend : Int64) (divisors : List Int64) :
    Divides dividend divisors (num <$> divide dividend divisors) := by
  unfold divide
  split
  · next zero => exact ⟨by simp [zero], fun nonzero => (nonzero zero).elim,
      fun nonzero => (nonzero zero).elim⟩
  · next nonzero =>
    rw [quotientByProduct_eq_exactQuotient dividend nonzero]
    split
    · next word found =>
      have exact := ofInt?_eq_some_iff.1 found
      refine ⟨by simp [nonzero], fun _ other => ?_, fun _ => ?_⟩
      · rw [Except.map_ok, Except.ok.injEq, num.injEq, ← exact, Int64.toInt_inj]
        exact eq_comm
      · simp only [Except.map_ok, reduceCtorEq, false_iff, not_forall, not_not]
        exact ⟨word, exact⟩
    · next absent =>
      have none (word : Int64) : word.toInt ≠ exactQuotient dividend divisors := by
        intro exact
        rw [ofInt?_eq_some_iff.2 exact] at absent
        cases absent
      exact ⟨by simp [nonzero], by simp [none], by simp [none]⟩

theorem mapM_number_num (primitive : Primitive) (words : List Int64) :
    (words.map num).mapM (number primitive) = .ok words := by
  induction words with
  | nil => rfl
  | cons word words ih =>
    rw [List.map_cons, List.mapM_cons, ih]
    rfl

/-- The first argument that is no number is the one at fault. -/
theorem mapM_number_error (primitive : Primitive) (before : List Int64) {other : Value}
    (noNumber : ∀ word, other ≠ num word) (after : List Value) :
    (before.map num ++ other :: after).mapM (number primitive) =
      .error (.wrongType primitive .number other) := by
  induction before with
  | nil =>
    rw [List.map_nil, List.nil_append, List.mapM_cons, number_error noNumber]
    rfl
  | cons word before ih =>
    rw [List.map_cons, List.cons_append, List.mapM_cons, ih]
    rfl

/-- Division of numbers gives the floor of the exact quotient, or the error that says why there is
none; its operations on 128 bits do not overflow; and the first argument that is no number is an error
whatever the others are. -/
theorem division_is_exact_floor :
    div.result [] = .ok (num 1) ∧
      (∀ divisor, Divides 1 [divisor] (div.result [num divisor])) ∧
      (∀ dividend divisors, divisors ≠ [] →
        Divides dividend divisors (div.result (num dividend :: divisors.map num))) ∧
      (∀ (dividend : Int64) (divisors : List Int64) product, 0 ∉ divisors →
        doubleProduct? divisors = some product →
          ofDouble? product = some product ∧
            doubleQuotient? dividend.toInt product = some (floorQuotient dividend.toInt product)) ∧
      ∀ (before : List Int64) (other : Value) (after : List Value), (∀ word, other ≠ num word) →
        div.result (before.map num ++ other :: after) = .error (.wrongType div .number other) := by
  refine ⟨rfl, fun divisor => divide_divides 1 [divisor], ?_, ?_, ?_⟩
  · intro dividend divisors some
    obtain ⟨divisor, divisors, rfl⟩ := List.exists_cons_of_ne_nil some
    have numbers := mapM_number_num div (dividend :: divisor :: divisors)
    rw [List.map_cons] at numbers
    rw [result, quotient, numbers]
    exact divide_divides dividend (divisor :: divisors)
  · intro dividend divisors product nonzero found
    obtain ⟨rfl, fits⟩ := eq_of_doubleProduct? found
    exact ⟨fits, doubleQuotient?_eq_floorQuotient dividend (exactProduct_ne_zero nonzero)⟩
  · intro before other after noNumber
    rw [result, quotient, mapM_number_error div before noNumber after]
    rfl

/-- A product of 186 bits under a small negative dividend, the quotient of the smallest word and minus
one on 128 bits, and a string behind a zero. -/
theorem division_is_exact_floor_beyond :
    div.result [num (-1), num (2 ^ 62), num (2 ^ 62), num (2 ^ 62)] = .ok (num (-1)) ∧
      doubleQuotient? (Int64.minValue).toInt (-1) = some (2 ^ 63) ∧
      div.result [num 1, num 0, str "2", nil] = .error (.wrongType div .number (str "2")) := by
  obtain ⟨-, -, divides, noOverflow, wrongType⟩ := division_is_exact_floor
  have dividend : (-1 : Int64).toInt = -1 := rfl
  have product : exactProduct [2 ^ 62, 2 ^ 62, 2 ^ 62] = 2 ^ 186 := by decide +kernel
  have floor : exactQuotient (-1) [2 ^ 62, 2 ^ 62, 2 ^ 62] = -1 := by
    rw [exactQuotient, dividend, product]
    norm_num
  refine ⟨?_, ?_, ?_⟩
  · have nonzero : 0 ∉ [(2 : Int64) ^ 62, 2 ^ 62, 2 ^ 62] := by decide +kernel
    apply ((divides (-1) [2 ^ 62, 2 ^ 62, 2 ^ 62] (by simp)).value nonzero (-1)).2
    rw [floor]
    rfl
  · have divisor : doubleProduct? [-1] = some (-1) := rfl
    rw [(noOverflow Int64.minValue [-1] (-1) (by decide) divisor).2]
    decide
  · exact wrongType [1, 0] (str "2") [nil] (by simp)

end Primitive

end MiniLisp
