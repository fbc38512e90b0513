import MiniLisp.Proofs.Token.Cuts

/-! Texts joined by line feeds. A line feed ends every token before it, except for a string, and every
comment. So if a text can be cut into tokens, then with a line feed and more behind it, it has the same
tokens, and the tokens of the rest come after them as they would at any other place. -/

namespace MiniLisp

/-! ### Tokens at another place -/

/-- A token that stands further on. -/
def Token.moved (distance : Nat) (token : Token) : Token :=
  { token with span := ⟨token.span.start + distance, token.span.stop + distance⟩ }

theorem tokensFrom_moved (cut : tokensFrom offset text = .ok tokens) (distance : Nat) :
    tokensFrom (offset + distance) text = .ok (tokens.map (Token.moved distance)) := by
  rw [tokensFrom_eq_ok_iff] at cut ⊢
  induction cut with
  | nil split => exact .nil split
  | token split isKind start stop later ih =>
    refine .token split isKind ?_ ?_ ih
    · rw [start, Nat.add_right_comm]
    · rw [stop, Nat.add_right_comm]

/-! ### Tokens before a line feed -/

theorem splitLiteral_append_of_decoded (decoded : decodeLiteral (splitLiteral text).1 = .ok inside)
    (more : List Char) :
    splitLiteral (text ++ more) = ((splitLiteral text).1, (splitLiteral text).2 ++ more) := by
  fun_induction splitLiteral text generalizing inside with
  | case1 => cases decoded
  | case2 rest => rfl
  | case3 => cases decoded
  | case4 c rest literal after cut ih =>
    rw [cut] at ih
    rcases decodeLiteral_escape c with failed | ⟨d, mapped⟩
    · rw [failed] at decoded
      cases decoded
    · rw [mapped] at decoded
      cases decoded' : decodeLiteral literal with
      | error => rw [decoded'] at decoded; cases decoded
      | ok text' => simp [splitLiteral, ih decoded']
  | case5 c rest quote lone escape literal after cut ih =>
    rw [cut] at ih
    have backslash := ne_backslash_of_split lone escape
    rw [decodeLiteral_ordinary quote backslash] at decoded
    cases decoded' : decodeLiteral literal with
    | error => rw [decoded'] at decoded; cases decoded
    | ok text' => rw [List.cons_append, splitLiteral_ordinary quote backslash, ih decoded']

private theorem takeWhile_stop (stops : p stop = false) (text more : List Char) :
    (text ++ stop :: more).takeWhile p = text.takeWhile p ∧
      (text ++ stop :: more).dropWhile p = text.dropWhile p ++ stop :: more := by
  induction text with
  | nil => simp [stops]
  | cons c text ih => by_cases goesOn : p c = true <;> simp [goesOn, ih]

/-- A lexeme is the same with a line feed and more behind the text. -/
theorem lexeme_append_feed (isKind : (lexeme c rest).kind = .ok kind) (more : List Char) :
    lexeme c (rest ++ '\n' :: more) =
      ⟨.ok kind, (lexeme c rest).text, (lexeme c rest).after ++ '\n' :: more⟩ := by
  rcases lexeme_start c with ⟨kind', mark⟩ | rfl | rfl | starts | invalid
  · rw [lexeme_mark mark] at isKind ⊢
    rw [lexeme_mark mark]
    cases isKind
    rfl
  · by_cases splice : ∃ others, rest = '@' :: others
    · obtain ⟨others, rfl⟩ := splice
      cases isKind
      rfl
    · have other : ∀ others, rest ≠ '@' :: others := fun others same => splice ⟨others, same⟩
      rw [lexeme_tilde other] at isKind ⊢
      cases isKind
      refine lexeme_tilde ?_
      cases rest with
      | nil => simp
      | cons d rest =>
        intro others same
        cases same
        exact other rest rfl
  · rw [lexeme_quote] at isKind ⊢
    cases decoded : decodeLiteral (splitLiteral rest).1 with
    | error => rw [decoded] at isKind; cases isKind
    | ok inside =>
      rw [decoded] at isKind
      rw [lexeme_quote, splitLiteral_append_of_decoded decoded, decoded]
      cases isKind
      rfl
  · rw [lexeme_atom starts] at isKind ⊢
    cases isKind
    obtain ⟨taken, left⟩ := takeWhile_stop (show continuesAtom '\n' = false from rfl) rest more
    rw [lexeme_atom starts, taken, left]
  · rw [invalid] at isKind
    cases isKind

/-- A line feed closes the comment that a text ends in. -/
theorem splitTrivia_append_feed (inComment : Bool) (all : splitTrivia inComment text = (trivia, []))
    (more : List Char) : splitTrivia inComment (text ++ '\n' :: more) =
      (text ++ '\n' :: (splitTrivia false more).1, (splitTrivia false more).2) := by
  fun_induction splitTrivia inComment text generalizing trivia with
  | case1 inComment => cases inComment <;> rfl
  | case2 => simp_all [splitTrivia]
  | case3 => simp_all [splitTrivia]
  | case4 => simp_all [splitTrivia]
  | case5 => cases all

/-- Tokens before a line feed stay what they are, and those behind it are cut on their own. -/
theorem tokensFrom_append_feed (cut : tokensFrom offset text = .ok tokens) (more : List Char) :
    tokensFrom offset (text ++ '\n' :: more) =
      (tokens ++ ·) <$> tokensFrom (offset + byteLength text + 1) more := by
  rw [tokensFrom_eq_ok_iff] at cut
  induction cut with
  | @nil text trivia offset split =>
    have skipped : splitTrivia false (text ++ '\n' :: more) =
        ((text ++ ['\n']) ++ (splitTrivia false more).1, (splitTrivia false more).2) := by
      rw [splitTrivia_append_feed false split, List.append_assoc]
      rfl
    have bytes : offset + byteLength (text ++ ['\n']) = offset + byteLength text + 1 := by
      rw [byteLength_append, ← Nat.add_assoc]
      rfl
    rw [tokensFrom_skip skipped, bytes]
    exact (id_map _).symm
  | @token text trivia c rest kind offset others span split isKind start stop later ih =>
    have longer : splitTrivia false (text ++ '\n' :: more) =
        (trivia, c :: (rest ++ '\n' :: more)) := by
      rcases splitTrivia_cut false text ('\n' :: more) with
        ⟨all, -⟩ | ⟨trivia', c', inside, short, longer⟩
      · rw [split] at all
        cases all
      · rw [split] at short
        cases short
        exact longer
    have extended := lexeme_append_feed isKind more
    have ends := stop_add_byteLength_after split start
    rw [← stop] at ends
    rw [tokensFrom_token longer (congrArg Lexeme.kind extended), extended, ← start, ← stop, ih, ends]
    cases tokensFrom (offset + byteLength text + 1) more <;> rfl

end MiniLisp
