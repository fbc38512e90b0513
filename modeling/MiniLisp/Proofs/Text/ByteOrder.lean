import Mathlib.Data.List.Lex

/-! The order of texts by their bytes. In UTF-8 a character with a smaller code point has the lesser
bytes, and no character has bytes that begin those of another one. So texts are ordered by their bytes
as they are ordered by their characters. -/

namespace MiniLisp

/-- The bytes of a text in UTF-8. -/
def bytesOf (text : String) : List UInt8 := text.toByteArray.data.toList

theorem bytesOf_eq (text : String) : bytesOf text = text.toList.flatMap String.utf8EncodeChar := by
  rw [bytesOf, ← String.ofList_toList (s := text), String.toByteArray_ofList, List.utf8Encode,
    List.data_toByteArray, String.toList_ofList]

/-- A way to write the numbers below a bound as bytes that puts the smaller of two numbers first,
whatever follows their bytes. -/
def Ascending (bound : Nat) (write : Nat → List UInt8) : Prop :=
  ∀ n m, n < m → m < bound → ∀ after after', write n ++ after < write m ++ after'

theorem cons_lt_cons_of_toNat_lt {first first' : UInt8} (less : first.toNat < first'.toNat)
    (rest rest' : List UInt8) : first :: rest < first' :: rest' :=
  List.cons_lt_cons_iff.2 (.inl (UInt8.lt_iff_toNat_lt.2 less))

/-- The first byte of a character marks how many there are and holds the highest digit. -/
theorem ascending_lead (bound mark : Nat) (fits : bound + mark ≤ 256) :
    Ascending bound fun n => [UInt8.ofNat (n % bound + mark)] := by
  intro n m less small after after'
  apply cons_lt_cons_of_toNat_lt
  rw [UInt8.toNat_ofNat', UInt8.toNat_ofNat', Nat.mod_eq_of_lt small,
    Nat.mod_eq_of_lt (less.trans small)]
  omega

/-- Every further byte holds one more digit to the base 64. -/
theorem Ascending.trail (ascending : Ascending bound write) :
    Ascending (bound * 64) fun n => write (n / 64) ++ [UInt8.ofNat (n % 64 + 128)] := by
  intro n m less small after after'
  simp only [List.append_assoc, List.singleton_append]
  by_cases higher : n / 64 < m / 64
  · exact ascending _ _ higher (by omega) _ _
  · have same : n / 64 = m / 64 := by omega
    rw [same]
    apply List.append_left_lt
    apply cons_lt_cons_of_toNat_lt
    rw [UInt8.toNat_ofNat', UInt8.toNat_ofNat']
    omega

theorem ascending_one : Ascending 128 fun n => [UInt8.ofNat n] := by
  intro n m less small after after'
  apply cons_lt_cons_of_toNat_lt
  rw [UInt8.toNat_ofNat', UInt8.toNat_ofNat']
  omega

theorem ascending_two : Ascending 2048 fun n =>
    [UInt8.ofNat (n / 64 % 32 + 192), UInt8.ofNat (n % 64 + 128)] :=
  (ascending_lead 32 192 (by decide)).trail

theorem ascending_three : Ascending 65536 fun n =>
    [UInt8.ofNat (n / 4096 % 16 + 224), UInt8.ofNat (n / 64 % 64 + 128),
      UInt8.ofNat (n % 64 + 128)] := by
  have digits := (ascending_lead 16 224 (by decide)).trail.trail
  simp only [Nat.div_div_eq_div_mul] at digits
  exact digits

theorem ascending_four : Ascending 2097152 fun n =>
    [UInt8.ofNat (n / 262144 % 8 + 240), UInt8.ofNat (n / 4096 % 64 + 128),
      UInt8.ofNat (n / 64 % 64 + 128), UInt8.ofNat (n % 64 + 128)] := by
  have digits := (ascending_lead 8 240 (by decide)).trail.trail.trail
  simp only [Nat.div_div_eq_div_mul] at digits
  exact digits

theorem toNat_lt_of_valid (c : Char) : c.val.toNat < 1114112 := by
  have valid := c.valid
  simp only [UInt32.isValidChar, Nat.isValidChar] at valid
  omega

/-- Characters with the same number of bytes are ordered by their digits; with different numbers, by
the marks of their first bytes. -/
theorem utf8EncodeChar_append_lt {c d : Char} (less : c < d) (after after' : List UInt8) :
    String.utf8EncodeChar c ++ after < String.utf8EncodeChar d ++ after' := by
  have less' : c.val.toNat < d.val.toNat := less
  have small := toNat_lt_of_valid d
  unfold String.utf8EncodeChar
  generalize c.val.toNat = n at *
  generalize d.val.toNat = m at *
  dsimp only
  by_cases one : m ≤ 127
  · rw [if_pos (by omega), if_pos one]
    exact ascending_one n m less' (by omega) after after'
  by_cases two : 127 < n ∧ m ≤ 2047
  · rw [if_neg (by omega), if_pos (by omega), if_neg one, if_pos two.2]
    exact ascending_two n m less' (by omega) after after'
  by_cases three : 2047 < n ∧ m ≤ 65535
  · rw [if_neg (by omega), if_neg (by omega), if_pos (by omega), if_neg one, if_neg (by omega),
      if_pos three.2]
    exact ascending_three n m less' (by omega) after after'
  by_cases four : 65535 < n
  · rw [if_neg (by omega), if_neg (by omega), if_neg (by omega), if_neg one, if_neg (by omega),
      if_neg (by omega)]
    exact ascending_four n m less' (by omega) after after'
  · repeat' split
    all_goals
      try omega
    all_goals
      apply cons_lt_cons_of_toNat_lt
      simp only [UInt8.toNat_ofNat']
      omega

/-- Texts are ordered by their bytes as they are by their characters. -/
theorem bytesOf_lt {first second : String} (less : first < second) :
    bytesOf first < bytesOf second := by
  rw [bytesOf_eq, bytesOf_eq]
  have lex := List.lex_lt.2 (String.lt_iff.1 less)
  generalize first.toList = text at lex
  generalize second.toList = text' at lex
  induction lex with
  | @nil c rest =>
    rw [List.flatMap_nil, List.flatMap_cons]
    obtain ⟨byte, bytes, some⟩ := List.exists_cons_of_ne_nil (@String.utf8EncodeChar_ne_nil c)
    rw [some]
    exact List.nil_lt_cons _ _
  | rel less =>
    rw [List.flatMap_cons, List.flatMap_cons]
    exact utf8EncodeChar_append_lt less _ _
  | cons _ ih =>
    rw [List.flatMap_cons, List.flatMap_cons]
    exact List.append_left_lt ih

end MiniLisp
