import MiniLisp.Text.Span

/-! String literals as the reader takes them: a text between double quotes, in which a backslash
starts one of three escapes. Writing a text as a literal and decoding it gives the text back. -/

namespace MiniLisp

/-- What can be wrong with a lexeme (`LexerErrorKind`). -/
inductive LexicalFault where
  /-- The text ended before the closing quote. -/
  | unterminatedString
  /-- A backslash was followed by a character that is no escape. -/
  | unknownEscape (c : Char)
  /-- No lexeme starts with this character. -/
  | invalidToken
deriving DecidableEq, Repr, Inhabited

/-- The wording of a lexical fault. -/
def LexicalFault.message : LexicalFault → String
  | .unterminatedString => "Unterminated string literal"
  | .unknownEscape c => "Unknown escape sequence: '\\" ++ c.toString ++ "'"
  | .invalidToken => "Invalid Token"

/-- Cuts the text that follows an opening quote after the matching closing quote (`TokenKind.String`). A
backslash takes the next character with it. Without a closing quote the cut is at the end of the text,
except that a backslash with nothing after it stays outside. -/
def splitLiteral : List Char → List Char × List Char
  | [] => ([], [])
  | '\x22' :: rest => (['\x22'], rest)
  | ['\\'] => ([], ['\\'])
  | '\\' :: c :: rest => let (inside, after) := splitLiteral rest; ('\\' :: c :: inside, after)
  | c :: rest => let (inside, after) := splitLiteral rest; (c :: inside, after)

/-- The text that a literal stands for, read from after its opening quote up to its closing one
(`unescape`). -/
def decodeLiteral : List Char → Except LexicalFault (List Char)
  | [] => .error .unterminatedString
  | '\x22' :: _ => .ok []
  | ['\\'] => .error .unterminatedString
  | '\\' :: c :: rest =>
    if c = 'n' then ('\n' :: ·) <$> decodeLiteral rest
    else if c = '\\' || c = '\x22' then (c :: ·) <$> decodeLiteral rest
    else .error (.unknownEscape c)
  | c :: rest => (c :: ·) <$> decodeLiteral rest

/-- One character as a literal spells it. -/
def encodeChar (c : Char) : List Char :=
  if c = '\x22' then ['\\', '\x22']
  else if c = '\n' then ['\\', 'n']
  else if c = '\\' then ['\\', '\\']
  else [c]

/-- A text as a literal, with both quotes (`write_string`). -/
def encodeLiteral (text : List Char) : List Char :=
  '\x22' :: (text.flatMap encodeChar ++ ['\x22'])

theorem splitLiteral_append (text : List Char) :
    (splitLiteral text).1 ++ (splitLiteral text).2 = text := by
  fun_induction splitLiteral text <;> simp_all

private theorem encodeChar_ordinary {c : Char} (quote : c ≠ '\x22') (feed : c ≠ '\n')
    (backslash : c ≠ '\\') : encodeChar c = [c] := by
  simp [encodeChar, quote, feed, backslash]

theorem decodeLiteral_encode (text after : List Char) :
    decodeLiteral (text.flatMap encodeChar ++ '\x22' :: after) = .ok text := by
  induction text with
  | nil => rfl
  | cons c rest ih =>
    have reduced : decodeLiteral ((c :: rest).flatMap encodeChar ++ '\x22' :: after) =
        (c :: ·) <$> decodeLiteral (rest.flatMap encodeChar ++ '\x22' :: after) := by
      by_cases quote : c = '\x22'
      · subst quote
        rfl
      by_cases feed : c = '\n'
      · subst feed
        rfl
      by_cases backslash : c = '\\'
      · subst backslash
        rfl
      rw [List.flatMap_cons, encodeChar_ordinary quote feed backslash, List.cons_append,
        List.nil_append, List.cons_append, decodeLiteral]
      · exact quote
      · exact fun h _ => backslash h
      · exact fun _ _ h _ => backslash h
    rw [reduced, ih]
    rfl

end MiniLisp
