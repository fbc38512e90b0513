import MiniLisp.Session

/-! Reports of errors to a person: a headline, a label for the marked place, and the line and column
where the mark starts. -/

namespace MiniLisp

/-- A report about a text. -/
structure Report where
  headline : String
  label : String
  /-- The offset of the first marked byte. -/
  start : Nat
deriving DecidableEq, Repr, Inhabited

/-- The report of a text that does not read (`ParseError.pretty_print`). The end of the text is marked
where something is missing there, and its start where there is nothing at all. -/
def ReadError.report (error : ReadError) (text : String) : Report :=
  match error with
  | .lexical error => ⟨"Lexer Error", error.fault.message, error.span.start⟩
  | .unexpectedToken found expected =>
    ⟨"Unexpected token: " ++ found.kind.display, "Expected " ++ expected.phrase, found.span.start⟩
  | .unexpectedEnd expected =>
    ⟨"Unexpected end of input", "Expected " ++ expected.phrase, byteLength text.toList⟩
  | .unterminated bracket span =>
    ⟨"Unterminated " ++ bracket.formName,
      "This is never closed with '" ++ bracket.closeChar.toString ++ "'", span.start⟩
  | .oddEntries span =>
    ⟨"Odd number of forms in hash-map literal", "The last key has no value", span.start⟩
  | .invalidNumber text span =>
    ⟨"Invalid number: " ++ text, "Does not fit in a 64-bit integer", span.start⟩
  | .empty => ⟨"Nothing to read", "Expected a form", 0⟩

/-- The headline for an error of evaluation (`EvalError.headline`). -/
def EvalError.headline : EvalError → String
  | unbound _ => "Unbound symbol"
  | missingCar => "Construction error"
  | notCallable _ => "Not a function"
  | notASymbol _ _ => "Not a symbol"
  | invalidForm _ => "Invalid special form"
  | malformedBindings _ => "Malformed bindings"
  | arity _ _ _ => "Wrong number of arguments"
  | wrongType _ _ _ => "Wrong argument type"
  | divisionByZero => "Division by zero"
  | overflow _ => "Integer overflow"
  | output _ => "Output error"

/-- The report of a form without a value (`EvalError.pretty_print`). Values have no places, so the whole
text is marked. -/
def EvalError.report (error : EvalError) : Report := ⟨error.headline, error.message, 0⟩

/-- A line and a column, both counted from one. -/
structure Location where
  line : Nat
  column : Nat
deriving DecidableEq, Repr, Inhabited

/-- The characters that end a line of a report. -/
def endsLine (c : Char) : Bool :=
  c == '\n' || c == '\r' || c == '\x0b' || c == '\x0c' || c == '\x85' || c == '\u2028' ||
    c == '\u2029'

/-- Whether the next character is on a new line. A carriage return and a line feed after it end one
line together, and no line follows the last character. -/
def startsLine (c : Char) : List Char → Bool
  | [] => false
  | next :: _ => endsLine c && !(c == '\r' && next == '\n')

/-- The location that lies some bytes after the given one, at the start of the text. -/
def Location.advance (location : Location) : Nat → List Char → Location
  | _, [] => location
  | offset, c :: rest =>
    if offset < c.utf8Size then location
    else if startsLine c rest then
      Location.advance ⟨location.line + 1, 1⟩ (offset - c.utf8Size) rest
    else Location.advance ⟨location.line, location.column + 1⟩ (offset - c.utf8Size) rest

/-- The location of an offset in a text. -/
def Location.ofOffset (text : String) (offset : Nat) : Location :=
  Location.advance ⟨1, 1⟩ offset text.toList

/-- The name under which the text of a report is known. -/
def Report.sourceName : String := "REPL"

/-- The place of a report: the name of the text, the line and the column. -/
def Report.place (report : Report) (text : String) : String :=
  let location := Location.ofOffset text report.start
  Report.sourceName ++ ":" ++ toString location.line ++ ":" ++ toString location.column

end MiniLisp
