import MiniLisp.Proofs.Reader.Derivation
import MiniLisp.Proofs.Token.Joins

/-! Texts of several lines. If each line can be cut into tokens, the text reads as the form that the
tokens of all its lines make up, whatever else is said about the lines. -/

namespace MiniLisp

/-- A line of a text is cut into the tokens that it has alone, elsewhere. -/
theorem tokensFrom_line (cut : tokenize line = .ok tokens) (offset : Nat) (more : List Char) :
    ∃ moved place, kindsOf moved = kindsOf tokens ∧
      tokensFrom offset (line.toList ++ '\n' :: more) =
        (moved ++ ·) <$> tokensFrom place more := by
  have moved := tokensFrom_moved cut offset
  rw [Nat.zero_add] at moved
  refine ⟨tokens.map (Token.moved offset), _, ?_, tokensFrom_append_feed moved more⟩
  rw [kindsOf, List.map_map]
  rfl

/-- Lines, each with the kinds of the tokens that it is cut into. -/
def CutLines (lines : List (String × List TokenKind)) : Prop :=
  ∀ line ∈ lines, ∃ tokens, tokenize line.1 = .ok tokens ∧ kindsOf tokens = line.2

theorem CutLines.nil : CutLines [] := List.forall_mem_nil _

theorem CutLines.cons (cut : tokenize line = .ok tokens) (others : CutLines lines) :
    CutLines ((line, kindsOf tokens) :: lines) :=
  List.forall_mem_cons.2 ⟨⟨tokens, cut, rfl⟩, others⟩

/-- The characters of lines that all end in a line feed. -/
def charsOfLines (lines : List String) : List Char :=
  lines.flatMap fun line => line.toList ++ ['\n']

/-- Lines are cut into the tokens of each in turn. -/
theorem tokensFrom_lines {lines : List (String × List TokenKind)} (cut : CutLines lines)
    (offset : Nat) (more : List Char) :
    ∃ tokens place, kindsOf tokens = lines.flatMap Prod.snd ∧
      tokensFrom offset (charsOfLines (lines.map Prod.fst) ++ more) =
        (tokens ++ ·) <$> tokensFrom place more := by
  induction lines generalizing offset with
  | nil => exact ⟨[], offset, rfl, (id_map _).symm⟩
  | cons line lines ih =>
    obtain ⟨tokens, here, kinds⟩ := cut line List.mem_cons_self
    obtain ⟨first, place, kinds', cut'⟩ := tokensFrom_line here offset
      (charsOfLines (lines.map Prod.fst) ++ more)
    obtain ⟨later, place', kinds'', cut''⟩ :=
      ih (fun other member => cut other (List.mem_cons_of_mem _ member)) place
    refine ⟨first ++ later, place', ?_, ?_⟩
    · rw [List.flatMap_cons, ← kinds, ← kinds', ← kinds'']
      exact List.map_append
    · have chars : charsOfLines ((line :: lines).map Prod.fst) ++ more =
          line.1.toList ++ '\n' :: (charsOfLines (lines.map Prod.fst) ++ more) := by
        simp [charsOfLines]
      rw [chars, cut', cut'']
      cases tokensFrom place' more with
      | error => rfl
      | ok tokens' => exact congrArg Except.ok (List.append_assoc _ _ _).symm

/-- Lines and a last one without a line feed read as the form that their tokens make up. -/
theorem read_lines {lines : List (String × List TokenKind)} (cut : CutLines lines)
    (lastCut : tokenize last = .ok tokens)
    (whole : text.toList = charsOfLines (lines.map Prod.fst) ++ last.toList)
    (form : Form literals (lines.flatMap Prod.snd ++ kindsOf tokens) value second) :
    MiniLisp.read literals text = .ok ⟨value, second⟩ := by
  obtain ⟨all, place, kinds, cut'⟩ := tokensFrom_lines cut 0 last.toList
  have moved := tokensFrom_moved lastCut place
  rw [Nat.zero_add] at moved
  rw [moved] at cut'
  have tokenized : tokenize text = .ok (all ++ tokens.map (Token.moved place)) := by
    rw [tokenize, whole, cut']
    rfl
  refine read_of_tokens tokenized ?_
  rw [kindsOf, List.map_append, List.map_map, ← kindsOf, kinds]
  exact form

end MiniLisp
