import MiniLisp.Proofs.Token.Spelling
import MiniLisp.Reader.Frame

/-! What atoms stand for: three constants by their spelling, numbers that fit into a word, and
symbols. The decimal digits of a word, with a sign if it is negative, are an atom that stands for
this word. -/

namespace MiniLisp

/-- The atoms that are neither numbers nor symbols. -/
def constantAtoms : List String := ["true", "false", "nil"]

/-- An atom is accepted as a constant, as a symbol if it does not spell a number, or as the word
whose value it spells. The place of the atom plays no part. -/
theorem atomValue_eq_ok_iff : atomValue text span = .ok value ↔
    text = "true" ∧ value = .bool true ∨ text = "false" ∧ value = .bool false ∨
    text = "nil" ∧ value = .nil ∨
    text ∉ constantAtoms ∧ (Number.spelled? text.toList = none ∧ value = .sym ⟨text⟩ ∨
      ∃ word : Int64, Number.spelled? text.toList = some word.toInt ∧ value = .num word) := by
  by_cases yes : text = "true"
  · subst yes
    simp [atomValue, constantAtoms, eq_comm]
  by_cases no : text = "false"
  · subst no
    simp [atomValue, constantAtoms, eq_comm]
  by_cases absent : text = "nil"
  · subst absent
    simp [atomValue, constantAtoms, eq_comm]
  simp only [atomValue, yes, no, absent, ↓reduceIte, constantAtoms, List.mem_cons,
    List.not_mem_nil, or_self, not_false_eq_true, true_and, false_and, false_or]
  cases Number.spelled? text.toList with
  | none => simp [eq_comm]
  | some exact =>
    simp only [reduceCtorEq, false_and, false_or, Option.some.injEq]
    cases fits : Number.ofInt? exact with
    | some word =>
      rw [Number.ofInt?_eq_some_iff] at fits
      constructor
      · intro same
        cases same
        exact ⟨word, fits.symm, rfl⟩
      · rintro ⟨other, same, rfl⟩
        rw [Int64.toInt_inj.1 (fits.trans same)]
    | none =>
      constructor
      · intro same
        cases same
      · rintro ⟨word, same, -⟩
        rw [Number.ofInt?_eq_some_iff.2 same.symm] at fits
        cases fits

/-! ### Numbers as they are printed -/

theorem startsAtom_of_isDigit (digit : Char.isDigit c = true) : startsAtom c = true := by
  have bounds := Char.isDigit_iff_toNat.1 digit
  simp only [Char.reduceToNat] at bounds
  have codes : c.toNat = '0'.toNat ∨ c.toNat = '1'.toNat ∨ c.toNat = '2'.toNat ∨
      c.toNat = '3'.toNat ∨ c.toNat = '4'.toNat ∨ c.toNat = '5'.toNat ∨ c.toNat = '6'.toNat ∨
      c.toNat = '7'.toNat ∨ c.toNat = '8'.toNat ∨ c.toNat = '9'.toNat := by
    simp only [Char.reduceToNat]
    omega
  simp only [Char.toNat_inj] at codes
  rcases codes with rfl | rfl | rfl | rfl | rfl | rfl | rfl | rfl | rfl | rfl <;> rfl

private theorem isDigit_of_mem_toDigits (member : c ∈ Nat.toDigits 10 n) : c.isDigit = true :=
  Nat.isDigit_of_mem_toDigits (by decide) (by decide) member

theorem Number.digits?_toDigits (n : Nat) : digits? (Nat.toDigits 10 n) = some n := by
  have all : (Nat.toDigits 10 n).all Char.isDigit = true :=
    List.all_eq_true.2 fun c member => isDigit_of_mem_toDigits member
  rw [digits?, if_pos ⟨Nat.toDigits_ne_nil, all⟩, Nat.ofDigitChars_ten_toDigits]

/-- The digits of a number start an atom, and go on with one. -/
theorem toDigits_eq_cons (n : Nat) : ∃ c rest, Nat.toDigits 10 n = c :: rest ∧
    c.isDigit = true ∧ ∀ next ∈ rest, continuesAtom next = true := by
  cases digits : Nat.toDigits 10 n with
  | nil => exact (Nat.toDigits_ne_nil digits).elim
  | cons c rest =>
    have all : ∀ next ∈ c :: rest, next.isDigit = true := fun next member =>
      isDigit_of_mem_toDigits (digits ▸ member)
    refine ⟨c, rest, rfl, all c List.mem_cons_self, ?_⟩
    intro next member
    exact (startsAtom_iff.1 (startsAtom_of_isDigit (all next (List.mem_cons_of_mem _ member)))).1

/-- Only a negative number has a sign. -/
theorem toList_toString (n : Int) : (toString n).toList =
    if n < 0 then '-' :: Nat.toDigits 10 n.natAbs else Nat.toDigits 10 n.natAbs := by
  rw [Int.toString_eq_repr, Int.repr_eq_if]
  by_cases negative : n < 0
  · have magnitude : (-n).toNat = n.natAbs := by omega
    rw [if_neg (by omega), if_pos negative, magnitude, String.toList_append, Nat.toList_repr]
    rfl
  · have magnitude : n.toNat = n.natAbs := by omega
    rw [if_pos (by omega), if_neg negative, magnitude, Nat.toList_repr]

theorem isAtom_toString (n : Int) : IsAtom (toString n).toList := by
  obtain ⟨c, rest, digits, first, others⟩ := toDigits_eq_cons n.natAbs
  rw [toList_toString, digits]
  split
  · refine ⟨'-', c :: rest, rfl, rfl, ?_⟩
    intro next member
    rcases List.mem_cons.1 member with rfl | member
    · exact (startsAtom_iff.1 (startsAtom_of_isDigit first)).1
    · exact others next member
  · exact ⟨c, rest, rfl, startsAtom_of_isDigit first, others⟩

theorem Number.spelled?_toString (n : Int) : spelled? (toString n).toList = some n := by
  have read := digits?_toDigits n.natAbs
  rw [toList_toString]
  split
  · next negative =>
    simp only [spelled?, read, Option.bind_eq_bind, Option.bind_some, Option.pure_def,
      Option.map_eq_map, Option.map_some, Option.some.injEq]
    omega
  · obtain ⟨c, rest, digits, first, -⟩ := toDigits_eq_cons n.natAbs
    have unsigned : c ≠ '-' ∧ c ≠ '+' := by
      constructor <;> rintro rfl <;> cases first
    rw [digits] at read ⊢
    rw [spelled?, read]
    · simp only [Option.bind_eq_bind, Option.bind_some, Option.pure_def, Option.map_eq_map,
        Option.map_some, Option.some.injEq]
      omega
    · intro digits same
      exact unsigned.1 (List.cons.inj same).1
    · intro digits same
      exact unsigned.2 (List.cons.inj same).1

theorem atomValue_toString (n : Int64) (span : Span) :
    atomValue (toString n.toInt) span = .ok (.num n) := by
  have spelled := Number.spelled?_toString n.toInt
  refine atomValue_eq_ok_iff.2 (.inr (.inr (.inr ⟨?_, .inr ⟨n, spelled, rfl⟩⟩)))
  intro constant
  have none : Number.spelled? (toString n.toInt).toList = none := by
    simp only [constantAtoms, List.mem_cons, List.not_mem_nil, or_false] at constant
    rcases constant with same | same | same <;> rw [same] <;> rfl
  rw [none] at spelled
  cases spelled

end MiniLisp
