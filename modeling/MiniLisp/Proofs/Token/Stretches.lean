import MiniLisp.Proofs.Token.Joins
import MiniLisp.Proofs.Token.Layout
import MiniLisp.Reader.Basic

/-! Stretches of a text. The characters from the start of a token to the end of a later one are cut by
themselves into these two and the tokens between them. -/

namespace MiniLisp

/-- The offset behind some tokens that start at an offset or later. -/
def offsetBehind (offset : Nat) : List Token → Nat
  | [] => offset
  | token :: tokens => offsetBehind token.span.stop tokens

/-- Tokens in front do not change where the last one ends. -/
theorem endOffset_append (some : later ≠ []) (earlier : List Token) :
    endOffset (earlier ++ later) = endOffset later := by
  rw [endOffset, endOffset, List.getLast?_append, List.getLast?_eq_some_getLast some]
  rfl

theorem exists_endOffset (some : tokens ≠ []) :
    ∃ token ∈ tokens, endOffset tokens = token.span.stop := by
  refine ⟨tokens.getLast some, List.getLast_mem some, ?_⟩
  rw [endOffset, List.getLast?_eq_some_getLast some]

theorem offsetBehind_eq_endOffset (token : Token) (inside : List Token) :
    offsetBehind token.span.stop inside = endOffset (token :: inside) := by
  induction inside generalizing token with
  | nil => rfl
  | cons next inside ih => exact (ih next).trans (endOffset_append (List.cons_ne_nil next inside) [token]).symm

theorem endOffset_moved (distance : Nat) (token : Token) (tokens : List Token) :
    endOffset ((token :: tokens).map (Token.moved distance)) =
      endOffset (token :: tokens) + distance := by
  rw [endOffset, endOffset, List.getLast?_map,
    List.getLast?_eq_some_getLast (List.cons_ne_nil token tokens)]
  rfl

/-- A text without the end that holds the last tokens is cut into the others. -/
theorem CutInto.upTo (cut : CutInto offset text (tokens ++ later)) :
    ∃ front back, text = front ++ back ∧ CutInto offset front tokens ∧
      offsetBehind offset tokens = offset + byteLength front := by
  induction tokens generalizing offset text with
  | nil => exact ⟨[], text, rfl, .nil rfl, rfl⟩
  | cons token tokens ih =>
    cases cut with
    | @token _ trivia c rest _ _ _ span split isKind start stop others =>
      obtain ⟨front, back, same, cut, ends⟩ := ih others
      obtain ⟨inside, spelled, alone⟩ := lexeme_shorter same
      refine ⟨trivia ++ c :: (inside ++ front), back, ?_, ?_, ?_⟩
      · rw [text_of_split split, same, spelled]
        simp only [List.cons_append, List.append_assoc]
      · rw [isKind] at alone
        refine .token (splitTrivia_rest split _) (congrArg Lexeme.kind alone) start ?_ ?_
        · rw [stop, alone, spelled]
        · rwa [alone]
      · rw [offsetBehind, ends, stop, start, byteLength_append, ← List.cons_append, ← spelled,
          byteLength_append]
        simp only [Nat.add_assoc]

/-- A text without what stands before a token is cut into this token and those behind it. -/
theorem CutInto.startingAt (cut : CutInto offset text (earlier ++ next :: later)) :
    ∃ front back, text = front ++ back ∧ next.span.start = offset + byteLength front ∧
      CutInto next.span.start back (next :: later) := by
  induction earlier generalizing offset text with
  | nil =>
    cases cut with
    | @token _ trivia c rest _ _ _ span split isKind start stop others =>
      obtain ⟨spacing, code⟩ := splitTrivia_after split
      refine ⟨trivia, c :: rest, ?_, start, ?_⟩
      · rw [← splitTrivia_append false text, split]
      · exact .token (splitTrivia_start spacing code rest) isKind rfl stop others
  | cons first earlier ih =>
    cases cut with
    | @token _ trivia c rest _ _ _ span split isKind start stop others =>
      obtain ⟨front, back, same, begins, cut⟩ := ih others
      refine ⟨trivia ++ (lexeme c rest).text ++ front, back, ?_, ?_, cut⟩
      · rw [List.append_assoc, ← same, ← text_of_split split]
      · rw [begins, stop, start, byteLength_append, byteLength_append]
        simp only [Nat.add_assoc]

/-- From one token to another, a text is cut into these two and the tokens between them. -/
theorem tokensFrom_stretch
    (cut : tokensFrom offset text = .ok (earlier ++ token :: (inside ++ later))) :
    ∃ front slice back,
      Slice offset text ⟨token.span.start, endOffset (token :: inside)⟩ front slice back ∧
        tokensFrom token.span.start slice = .ok (token :: inside) := by
  rw [tokensFrom_eq_ok_iff] at cut
  obtain ⟨front, tail, rfl, start, cut⟩ := cut.startingAt
  rw [← List.cons_append] at cut
  obtain ⟨slice, back, rfl, cut, stop⟩ := cut.upTo
  rw [offsetBehind, offsetBehind_eq_endOffset] at stop
  exact ⟨front, slice, back, ⟨(List.append_assoc _ _ _).symm, start, stop⟩,
    tokensFrom_eq_ok_iff.2 cut⟩

/-- A text can be cut at any place if it can be cut at one. -/
theorem exists_tokensFrom (cut : tokensFrom offset text = .ok tokens) (offset' : Nat) :
    ∃ tokens', tokensFrom offset' text = .ok tokens' := by
  rw [tokensFrom_eq_ok_iff] at cut
  induction cut generalizing offset' with
  | nil split => exact ⟨[], tokensFrom_nil split⟩
  | token split isKind start stop later ih =>
    obtain ⟨tokens', cut'⟩ := ih (offset' + byteLength _ + byteLength (lexeme _ _).text)
    exact ⟨_, by rw [tokensFrom_token split isKind, cut']; rfl⟩

/-- The tokens of a stretch of a text are those of the text, each as far on as the stretch is. They
reach from its front to its end. -/
theorem tokenize_stretch
    (cut : tokensFrom 0 text = .ok (earlier ++ token :: (inside ++ later))) :
    ∃ front slice back first others,
      Slice 0 text ⟨token.span.start, endOffset (token :: inside)⟩ front slice back ∧
        tokenize (String.ofList slice) = .ok (first :: others) ∧
        token = first.moved (byteLength front) ∧
        inside = others.map (Token.moved (byteLength front)) ∧
        first.span.start = 0 ∧ endOffset (first :: others) = byteLength slice := by
  obtain ⟨front, slice, back, found, cut⟩ := tokensFrom_stretch cut
  obtain ⟨tokens, alone⟩ := exists_tokensFrom cut 0
  have moved := tokensFrom_moved alone (byteLength front)
  rw [← found.start, cut, Except.ok.injEq] at moved
  have start := found.start
  have stop := found.stop
  rw [moved] at stop
  obtain ⟨first, others, rfl, rfl, rfl⟩ := List.map_eq_cons_iff.1 moved.symm
  rw [endOffset_moved] at stop
  refine ⟨front, slice, back, first, others, found, ?_, rfl, rfl, Nat.add_right_cancel start, ?_⟩
  · rwa [tokenize, String.toList_ofList]
  · simp only [Token.moved] at start stop
    omega

end MiniLisp
