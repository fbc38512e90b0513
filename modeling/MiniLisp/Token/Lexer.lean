import MiniLisp.Text.Blank
import MiniLisp.Text.Literal
import MiniLisp.Token.Basic

/-! Cutting a text into tokens. Between tokens lie spacing (blanks and commas) and comments, from a
semicolon up to the end of the line. Each token is the longest lexeme at its place, and the first
fault of the text is the result for the whole text. -/

namespace MiniLisp

/-- Blanks and commas separate tokens (`TokenKind`, skipped). -/
def isSpacing (c : Char) : Bool := isBlank c || c == ','

/-- Spacing, brackets, the quote, the double quote, the back quote and the semicolon end an atom
(`TokenKind.Atom`). -/
def isDelimiter (c : Char) : Bool :=
  isSpacing c || (Bracket.ofOpen? c).isSome || (Bracket.ofClose? c).isSome ||
    c == '\x27' || c == '\x22' || c == '\x60' || c == ';'

/-- The tilde, the caret and the at sign may stand inside an atom but do not start one. -/
def startsAtom (c : Char) : Bool := !isDelimiter c && !(c == '~' || c == '^' || c == '@')

/-- Any character that is no delimiter goes on with an atom. -/
def continuesAtom (c : Char) : Bool := !isDelimiter c

/-- Cuts off the spacing and comments at the start of a text (`TokenKind`, skipped). The flag says that
the text starts inside a comment. The characters that end a comment are blanks, so they are cut off with
it. -/
def splitTrivia (inComment : Bool) : List Char → List Char × List Char
  | [] => ([], [])
  | c :: rest =>
    if inComment then
      let (trivia, after) := splitTrivia (!breaksLine c) rest
      (c :: trivia, after)
    else if isSpacing c then
      let (trivia, after) := splitTrivia false rest
      (c :: trivia, after)
    else if c = ';' then
      let (trivia, after) := splitTrivia true rest
      (c :: trivia, after)
    else ([], c :: rest)

/-- The token that a character is on its own (`TokenKind`). The tilde is left out, since the next
character decides about it. -/
def TokenKind.ofMark? (c : Char) : Option TokenKind :=
  match Bracket.ofOpen? c, Bracket.ofClose? c with
  | some bracket, _ => some (.opening bracket)
  | none, some bracket => some (.closing bracket)
  | none, none =>
    if c = '\x27' then some (.shorthand .quote)
    else if c = '\x60' then some (.shorthand .quasiquote)
    else if c = '@' then some (.shorthand .deref)
    else if c = '^' then some .caret
    else none

/-- A lexeme: what it is, its characters, and the text after it. -/
structure Lexeme where
  kind : Except LexicalFault TokenKind
  text : List Char
  after : List Char

/-- The lexeme at the start of a text that starts with neither spacing nor a comment (`TokenKind`, the
longest match). -/
def lexeme (c : Char) (rest : List Char) : Lexeme :=
  match TokenKind.ofMark? c with
  | some kind => ⟨.ok kind, [c], rest⟩
  | none =>
    if c = '~' then
      match rest with
      | '@' :: rest => ⟨.ok (.shorthand .spliceUnquote), ['~', '@'], rest⟩
      | rest => ⟨.ok (.shorthand .unquote), ['~'], rest⟩
    else if c = '\x22' then
      let (inside, after) := splitLiteral rest
      ⟨(fun text => .str (String.ofList text)) <$> decodeLiteral inside, c :: inside, after⟩
    else if startsAtom c then
      let text := c :: rest.takeWhile continuesAtom
      ⟨.ok (.atom (String.ofList text)), text, rest.dropWhile continuesAtom⟩
    else ⟨.error .invalidToken, [c], rest⟩

/-- Trivia and the text after it make up the whole text. -/
theorem splitTrivia_append (inComment : Bool) (text : List Char) :
    (splitTrivia inComment text).1 ++ (splitTrivia inComment text).2 = text := by
  fun_induction splitTrivia inComment text <;> simp_all

/-- A lexeme and the text after it make up the whole text. -/
theorem lexeme_append (c : Char) (rest : List Char) :
    (lexeme c rest).text ++ (lexeme c rest).after = c :: rest := by
  unfold lexeme
  split
  · rfl
  · split
    · next h =>
      split <;> simp [h]
    · split
      · simp [splitLiteral_append]
      · split <;> simp [List.takeWhile_append_dropWhile]

/-- A lexeme is never empty. -/
theorem lexeme_text_ne_nil (c : Char) (rest : List Char) : (lexeme c rest).text ≠ [] := by
  unfold lexeme
  split
  · simp
  · split
    · split <;> simp
    · split
      · simp
      · split <;> simp

theorem lexeme_after_length (c : Char) (rest : List Char) :
    (lexeme c rest).after.length < (c :: rest).length := by
  have whole := congrArg List.length (lexeme_append c rest)
  have := List.length_pos_iff.2 (lexeme_text_ne_nil c rest)
  rw [List.length_append] at whole
  omega

private theorem splitTrivia_after_length (inComment : Bool) (text : List Char) :
    (splitTrivia inComment text).2.length ≤ text.length := by
  have whole := congrArg List.length (splitTrivia_append inComment text)
  rw [List.length_append] at whole
  omega

/-- A lexical fault and the lexeme that has it (`LexerError`). -/
structure LexicalError where
  fault : LexicalFault
  span : Span
deriving DecidableEq, Repr, Inhabited

/-- The tokens of a text whose first byte has the given offset. -/
def tokensFrom (offset : Nat) (text : List Char) : Except LexicalError (List Token) :=
  match _cut : splitTrivia false text with
  | (_, []) => .ok []
  | (trivia, c :: rest) =>
    let found := lexeme c rest
    let start := offset + byteLength trivia
    let span := ⟨start, start + byteLength found.text⟩
    match found.kind with
    | .error fault => .error ⟨fault, span⟩
    | .ok kind => (⟨kind, span⟩ :: ·) <$> tokensFrom span.stop found.after
termination_by text.length
decreasing_by
  have bound := splitTrivia_after_length false text
  rw [_cut] at bound
  exact Nat.lt_of_lt_of_le (lexeme_after_length c rest) bound

/-- The tokens of a text (`tokenize`). -/
def tokenize (text : String) : Except LexicalError (List Token) := tokensFrom 0 text.toList

end MiniLisp
