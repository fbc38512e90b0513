import Mathlib
import MiniLisp.Proofs.Reader.Atoms
import MiniLisp.Value.Printer

/-! Numbers as they are read. A text spells a number if it is made of decimal digits, with at most one
sign before them, and then it has an exact value, however long it is. An atom that spells a number is
read as the word of this value, and refused if there is no such word. A word is printed in one way only,
so two atoms are read as the same number just if what is read is printed alike. -/

namespace MiniLisp

namespace Number

/-- The value of a decimal digit. -/
def digitValue (c : Char) : Nat := c.toNat - '0'.toNat

/-- The value of some decimal digits, the last of which counts the units. -/
def decimalValue (digits : List Char) : Nat := Nat.ofDigits 10 (digits.reverse.map digitValue)

/-- One or more ASCII digits. -/
def IsDigits (text : List Char) : Prop := text ≠ [] ∧ ∀ c ∈ text, '0' ≤ c ∧ c ≤ '9'

/-- The texts that spell a number, with its exact value. -/
inductive Numeral : List Char → Int → Prop where
  | unsigned (digits : IsDigits text) : Numeral text (decimalValue text)
  | plus (digits : IsDigits text) : Numeral ('+' :: text) (decimalValue text)
  | minus (digits : IsDigits text) : Numeral ('-' :: text) (-decimalValue text)

/-- The limits of words. -/
theorem ofInt?_isSome_iff {exact : Int} :
    (∃ word, ofInt? exact = some word) ↔ -2 ^ 63 ≤ exact ∧ exact ≤ 2 ^ 63 - 1 := by
  have limits : -wordBound ≤ exact ∧ exact < wordBound ↔ -2 ^ 63 ≤ exact ∧ exact ≤ 2 ^ 63 - 1 := by
    simp only [wordBound]
    omega
  rw [← limits]
  unfold ofInt?
  split <;> simp_all

/-! ### Digits -/

/-- Adding up digits from the left gives the value that their places give them. -/
theorem ofDigitChars_eq_decimalValue (digits : List Char) :
    Nat.ofDigitChars 10 digits 0 = decimalValue digits := by
  rw [decimalValue, Nat.ofDigits_eq_foldr, List.foldr_map, List.foldr_reverse]
  simp only [Nat.ofDigitChars, digitValue, Nat.cast_id, Nat.add_comm]

theorem isDigits_iff : IsDigits text ↔ text ≠ [] ∧ text.all Char.isDigit = true := by
  simp [IsDigits, Char.isDigit, Char.le_def]

theorem digits?_eq_some_iff : digits? text = some n ↔ IsDigits text ∧ decimalValue text = n := by
  rw [digits?, isDigits_iff, ← ofDigitChars_eq_decimalValue]
  split <;> simp_all

/-! ### Signs -/

theorem IsDigits.unsigned (digits : IsDigits text) (rest : List Char) :
    text ≠ '-' :: rest ∧ text ≠ '+' :: rest := by
  constructor <;> rintro rfl <;> exact absurd (digits.2 _ List.mem_cons_self) (by decide)

private theorem signed_eq_some_iff (sign : Int → Int) :
    (sign <$> do
        let magnitude ← digits? text
        pure (magnitude : Int)) = some exact ↔
      IsDigits text ∧ sign (decimalValue text) = exact := by
  cases found : digits? text with
  | none =>
    have none : ¬ IsDigits text := fun digits => by
      rw [digits?_eq_some_iff.2 ⟨digits, rfl⟩] at found
      cases found
    simp [none]
  | some n =>
    obtain ⟨digits, rfl⟩ := digits?_eq_some_iff.1 found
    simp [digits]

/-- A text spells a number just if it has its form, and the value is that of its digits. -/
theorem spelled?_eq_some_iff : spelled? text = some exact ↔ Numeral text exact := by
  constructor
  · intro spelled
    unfold spelled? at spelled
    split at spelled
    all_goals obtain ⟨digits, rfl⟩ := (signed_eq_some_iff _).1 spelled
    · exact .minus digits
    · exact .plus digits
    · exact .unsigned digits
  · intro numeral
    cases numeral with
    | unsigned digits =>
      rw [spelled?]
      · exact (signed_eq_some_iff _).2 ⟨digits, rfl⟩
      · exact fun rest => (digits.unsigned rest).1
      · exact fun rest => (digits.unsigned rest).2
    | plus digits => exact (signed_eq_some_iff _).2 ⟨digits, rfl⟩
    | minus digits => exact (signed_eq_some_iff _).2 ⟨digits, rfl⟩

end Number

open Number

/-! ### Atoms that are numbers -/

/-- The constants are no numbers. -/
theorem Number.Numeral.not_constant {text : String} (numeral : Numeral text.toList exact) :
    text ∉ constantAtoms := by
  intro constant
  have spelled := spelled?_eq_some_iff.2 numeral
  have none : spelled? text.toList = none := by
    simp only [constantAtoms, List.mem_cons, List.not_mem_nil, or_false] at constant
    rcases constant with rfl | rfl | rfl <;> rfl
  rw [none] at spelled
  cases spelled

theorem atomValue_eq_num_iff {word : Int64} :
    atomValue text span = .ok (.num word) ↔ Numeral text.toList word.toInt := by
  rw [atomValue_eq_ok_iff, ← spelled?_eq_some_iff]
  constructor
  · rintro (⟨-, same⟩ | ⟨-, same⟩ | ⟨-, same⟩ | ⟨-, ⟨-, same⟩ | ⟨word, spelled, same⟩⟩) <;> cases same
    exact spelled
  · intro spelled
    have numeral := spelled?_eq_some_iff.1 spelled
    exact .inr (.inr (.inr ⟨numeral.not_constant, .inr ⟨word, spelled, rfl⟩⟩))

theorem atomValue_eq_error_iff : atomValue text span = .error error ↔
    error = .invalidNumber text span ∧
      ∃ exact, Numeral text.toList exact ∧ ¬ ∃ word, ofInt? exact = some word := by
  constructor
  · intro failed
    unfold atomValue at failed
    repeat' split at failed
    all_goals cases failed
    next exact spelled _ beyond =>
      exact ⟨rfl, exact, spelled?_eq_some_iff.1 spelled, by simp [beyond]⟩
  · rintro ⟨rfl, exact, numeral, beyond⟩
    have other := numeral.not_constant
    have beyond : ofInt? exact = none := Option.eq_none_iff_forall_ne_some.2 fun word found =>
      beyond ⟨word, found⟩
    simp only [constantAtoms, List.mem_cons, List.not_mem_nil, or_false, not_or] at other
    simp [atomValue, other, spelled?_eq_some_iff.2 numeral, beyond]

theorem Value.print_num_inj {word word' : Int64} :
    (Value.num word).print = (Value.num word').print ↔ word = word' := by
  refine ⟨fun same => ?_, fun same => congrArg (fun word => (Value.num word).print) same⟩
  have texts : (toString word.toInt).toList = (toString word'.toInt).toList := by
    simpa only [Value.print, Value.write, Place.put, String.ofList_inj] using same
  have values := congrArg spelled? texts
  rw [Number.spelled?_toString, Number.spelled?_toString, Option.some.injEq] at values
  exact Int64.toInt_inj.1 values

/-- An atom is read as a number just if it spells one that lies between the limits of words, and it is
refused just if it spells a number that does not. Atoms are read as the same number just if what is read
is printed alike. -/
theorem numbers_are_read_exactly :
    (∀ text span exact, (∃ word, atomValue text span = .ok (.num word) ∧ word.toInt = exact) ↔
      Numeral text.toList exact ∧ -2 ^ 63 ≤ exact ∧ exact ≤ 2 ^ 63 - 1) ∧
    (∀ text span error, atomValue text span = .error error ↔
      error = .invalidNumber text span ∧
        ∃ exact, Numeral text.toList exact ∧ ¬ (-2 ^ 63 ≤ exact ∧ exact ≤ 2 ^ 63 - 1)) ∧
    ∀ text text' span span' word word', atomValue text span = .ok (.num word) →
      atomValue text' span' = .ok (.num word') →
        (word = word' ↔ (Value.num word).print = (Value.num word').print) := by
  refine ⟨?_, ?_, ?_⟩
  · intro text span exact
    rw [← ofInt?_isSome_iff]
    constructor
    · rintro ⟨word, read, rfl⟩
      exact ⟨atomValue_eq_num_iff.1 read, word, ofInt?_eq_some_iff.2 rfl⟩
    · rintro ⟨numeral, word, fits⟩
      obtain rfl := ofInt?_eq_some_iff.1 fits
      exact ⟨word, atomValue_eq_num_iff.2 numeral, rfl⟩
  · intro text span error
    simp only [← ofInt?_isSome_iff]
    exact atomValue_eq_error_iff
  · intro text text' span span' word word' _ _
    exact Value.print_num_inj.symm

/-- A number with a plus sign and leading zeros next to its negative, and one that is just below all
words. -/
theorem numbers_are_read_exactly_signs :
    atomValue "+007" default = .ok (.num 7) ∧ atomValue "-7" default = .ok (.num (-7)) ∧
      ((7 : Int64) = -7 ↔ (Value.num 7).print = (Value.num (-7)).print) ∧
      atomValue "-09223372036854775809" default =
        .error (.invalidNumber "-09223372036854775809" default) := by
  have plus : atomValue "+007" default = .ok (.num 7) := by cbv
  have minus : atomValue "-7" default = .ok (.num (-7)) := by cbv
  obtain ⟨-, beyond, alike⟩ := numbers_are_read_exactly
  have numeral : Numeral "-09223372036854775809".toList (-9223372036854775809) :=
    @Numeral.minus "09223372036854775809".toList (isDigits_iff.2 ⟨by decide, by cbv⟩)
  exact ⟨plus, minus, alike _ _ _ _ _ _ plus minus,
    (beyond _ _ _).2 ⟨rfl, -9223372036854775809, numeral, by decide⟩⟩

end MiniLisp
