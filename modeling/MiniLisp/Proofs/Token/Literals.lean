import Mathlib
import MiniLisp.Proofs.Token.Cuts
import MiniLisp.Value.Printer

/-! String literals as they are printed. A literal can spell a line feed in two ways, by an escape or by
the character itself, and everything else in one way only. So the printed form of a string is the literal
that it was read from, but for the line feeds that stand in it as they are. -/

namespace MiniLisp

/-- A text that is one string literal and nothing else, and the string that it stands for. -/
def IsLiteral (text inside : String) : Prop :=
  tokenize text = .ok [⟨.str inside, ⟨0, byteLength text.toList⟩⟩]

/-- One character of a literal, or the escape in place of a line feed. -/
def escapeFeed (c : Char) : List Char := if c = '\n' then ['\\', 'n'] else [c]

theorem flatMap_escapeFeed_eq_self_iff {text : List Char} :
    text.flatMap escapeFeed = text ↔ '\n' ∉ text := by
  induction text with
  | nil => simp
  | cons c rest ih =>
    by_cases feed : c = '\n'
    · simp [escapeFeed, feed]
    · simp [escapeFeed, feed, Ne.symm feed, ih]

theorem encodeChar_eq_escapeFeed (quote : c ≠ '\x22') (backslash : c ≠ '\\') :
    encodeChar c = escapeFeed c := by
  simp [encodeChar, escapeFeed, quote, backslash]

/-- What a literal stands for is encoded as the literal again, but for its line feeds. An escape stands
for a character that is encoded as this escape, and any other character is encoded as itself. -/
theorem encode_of_decodeLiteral (decoded : decodeLiteral (splitLiteral rest).1 = .ok text) :
    text.flatMap encodeChar ++ ['\x22'] = (splitLiteral rest).1.flatMap escapeFeed := by
  fun_induction splitLiteral rest generalizing text with
  | case1 => cases decoded
  | case2 rest =>
    cases decoded
    rfl
  | case3 => cases decoded
  | case4 c rest inside after cut ih =>
    rw [cut] at ih
    by_cases known : IsEscape c
    · obtain ⟨d, encoded, mapped⟩ := decodeLiteral_known known
      rw [mapped] at decoded
      obtain ⟨text', decoded', rfl⟩ := exists_of_map_eq_ok decoded
      have kept : escapeFeed c = [c] := by
        rcases known with rfl | rfl | rfl <;> rfl
      rw [List.flatMap_cons, encoded, List.append_assoc, ih decoded', List.flatMap_cons,
        List.flatMap_cons, kept]
      rfl
    · rw [decodeLiteral_unknown known] at decoded
      cases decoded
  | case5 c rest quote lone escape inside after cut ih =>
    rw [cut] at ih
    have backslash := ne_backslash_of_split lone escape
    rw [decodeLiteral_ordinary quote backslash] at decoded
    obtain ⟨text', decoded', rfl⟩ := exists_of_map_eq_ok decoded
    rw [List.flatMap_cons, encodeChar_eq_escapeFeed quote backslash, List.append_assoc, ih decoded',
      List.flatMap_cons]

/-- A lexeme that is a string is a literal, which is encoded as it stands but for its line feeds. -/
theorem encodeLiteral_of_lexeme (isStr : (lexeme c rest).kind = .ok (.str text)) :
    encodeLiteral text.toList = (lexeme c rest).text.flatMap escapeFeed := by
  rcases lexeme_kind_cases isStr with other | ⟨rfl, inside, decoded, same⟩ | ⟨-, same⟩
  · exact ((other text).1 rfl).elim
  · cases same
    rw [String.toList_ofList, encodeLiteral, encode_of_decodeLiteral decoded]
    rfl
  · cases same

/-- A literal is printed as it was read, but for its line feeds. -/
theorem IsLiteral.print (literal : IsLiteral text inside) :
    (Value.str inside).print = String.ofList (text.toList.flatMap escapeFeed) := by
  obtain ⟨c, rest, spelled, found⟩ := lexeme_of_alone literal
  have encoded := encodeLiteral_of_lexeme (congrArg Lexeme.kind found)
  rw [found, ← spelled] at encoded
  exact congrArg String.ofList encoded

theorem IsLiteral.print_eq_iff (literal : IsLiteral text inside) :
    (Value.str inside).print = text ↔ '\n' ∉ text.toList := by
  rw [literal.print, ← flatMap_escapeFeed_eq_self_iff, ← String.toList_inj, String.toList_ofList]

/-- A string is printed as the literal that it was read from with an escape in place of each line feed, so
as the very same text just if there are none. Two literals without line feeds that stand for the same
string are the same. -/
theorem literals_print_as_read :
    (∀ text inside, IsLiteral text inside →
      (Value.str inside).print = String.ofList (text.toList.flatMap escapeFeed) ∧
        ((Value.str inside).print = text ↔ '\n' ∉ text.toList)) ∧
    ∀ text text' inside, IsLiteral text inside → IsLiteral text' inside →
      '\n' ∉ text.toList → '\n' ∉ text'.toList → text = text' := by
  constructor
  · intro text inside literal
    exact ⟨literal.print, literal.print_eq_iff⟩
  · intro text text' inside literal literal' plain plain'
    calc text = (Value.str inside).print := (literal.print_eq_iff.2 plain).symm
      _ = text' := literal'.print_eq_iff.2 plain'

/-- A literal with all three escapes at its end, and one with a line feed between escapes. -/
theorem literals_print_as_read_escapes :
    ((Value.str "é\n\\\"").print = "\"é\\n\\\\\\\"\"" ↔ '\n' ∉ "\"é\\n\\\\\\\"\"".toList) ∧
      (Value.str "\\\n\n").print = String.ofList ("\"\\\\\n\\n\"".toList.flatMap escapeFeed) ∧
      "\"é\\n\\\\\\\"\"" = "\"é\\n\\\\\\\"\"" := by
  have escapes : IsLiteral "\"é\\n\\\\\\\"\"" "é\n\\\"" := by unfold IsLiteral; cbv
  have feed : IsLiteral "\"\\\\\n\\n\"" "\\\n\n" := by unfold IsLiteral; cbv
  obtain ⟨printed, unique⟩ := literals_print_as_read
  exact ⟨(printed _ _ escapes).2, (printed _ _ feed).1,
    unique _ _ _ escapes escapes (by decide) (by decide)⟩

end MiniLisp
