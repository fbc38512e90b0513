import MiniLisp.Token.Lexer

/-! What can go wrong when a form is read from a text, how it is worded and where it lies. -/

namespace MiniLisp

/-- What the reader was looking for. -/
inductive Expectation where
  | form
  /-- The form that a shorthand wraps. -/
  | formAfter (mark : Shorthand)
  /-- The form that carries metadata just read. -/
  | formAfterMetadata
  /-- The map that has to follow a caret. -/
  | metadata
  | endOfInput
deriving DecidableEq, Repr, Inhabited

/-- The wording of an expectation. -/
def Expectation.phrase : Expectation → String
  | form => "a form"
  | formAfter mark => "a form after " ++ mark.name
  | formAfterMetadata => "a form after with-meta"
  | metadata => "a hash-map after '^'"
  | endOfInput => "end of input"

/-- The reasons why a text does not read (`ParseError`). -/
inductive ReadError where
  /-- The text could not be cut into tokens. -/
  | lexical (error : LexicalError)
  /-- A token stands where something else has to stand. -/
  | unexpectedToken (found : Token) (expected : Expectation)
  /-- The text ended where something has to follow. -/
  | unexpectedEnd (expected : Expectation)
  /-- The text ended inside a bracket. The span runs from the bracket to the last token. -/
  | unterminated (bracket : Bracket) (span : Span)
  /-- A map literal has a key without a value. -/
  | oddEntries (span : Span)
  /-- A number does not fit into a word. -/
  | invalidNumber (text : String) (span : Span)
  /-- The text holds no form at all. -/
  | empty
deriving DecidableEq, Repr, Inhabited

namespace ReadError

/-- The wording of an error. -/
def message : ReadError → String
  | lexical error => error.fault.message
  | unexpectedToken found expected =>
    "unexpected token '" ++ found.kind.display ++ "' at [" ++ found.span.render ++
      "], expected " ++ expected.phrase
  | unexpectedEnd expected => "unexpected end of input, expected " ++ expected.phrase
  | unterminated bracket _ =>
    "unterminated " ++ bracket.formName ++ ": reached end of input before '" ++
      bracket.closeChar.toString ++ "'"
  | oddEntries span =>
    "hash-map literal at [" ++ span.render ++ "] has a key without a value"
  | invalidNumber text _ => "integer literal out of range: " ++ text
  | empty => "no form to read"

/-- The place of an error. The end of the text and an empty text are no places in it. -/
def span? : ReadError → Option Span
  | lexical error => some error.span
  | unexpectedToken found _ => some found.span
  | unexpectedEnd _ => none
  | unterminated _ span => some span
  | oddEntries span => some span
  | invalidNumber _ span => some span
  | empty => none

end ReadError

end MiniLisp
