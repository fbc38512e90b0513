import MiniLisp.Text.Shown
import MiniLisp.Text.Span

/-! Tokens: the brackets, the reader's shorthands, string literals and atoms. -/

namespace MiniLisp

/-- The three kinds of bracket, which enclose lists, vectors and map literals. -/
inductive Bracket where
  | round
  | square
  | curly
deriving DecidableEq, Repr, Inhabited

namespace Bracket

/-- The character that opens the bracket. -/
def openChar : Bracket → Char
  | round => '('
  | square => '['
  | curly => '\x7b'

/-- The character that closes the bracket. -/
def closeChar : Bracket → Char
  | round => ')'
  | square => ']'
  | curly => '\x7d'

/-- What the bracket encloses (`parse_sequence`, `parse_hash_map`). -/
def formName : Bracket → String
  | round => "list"
  | square => "vector"
  | curly => "hash-map"

/-- The bracket that a character opens. -/
def ofOpen? : Char → Option Bracket
  | '(' => some round
  | '[' => some square
  | '\x7b' => some curly
  | _ => none

/-- The bracket that a character closes. -/
def ofClose? : Char → Option Bracket
  | ')' => some round
  | ']' => some square
  | '\x7d' => some curly
  | _ => none

theorem ofOpen?_eq_some {c : Char} {bracket : Bracket} :
    ofOpen? c = some bracket ↔ c = bracket.openChar := by
  constructor
  · fun_cases ofOpen? c <;> simp <;> rintro rfl <;> rfl
  · rintro rfl
    cases bracket <;> rfl

theorem ofClose?_eq_some {c : Char} {bracket : Bracket} :
    ofClose? c = some bracket ↔ c = bracket.closeChar := by
  constructor
  · fun_cases ofClose? c <;> simp <;> rintro rfl <;> rfl
  · rintro rfl
    cases bracket <;> rfl

end Bracket

/-- A mark that wraps the next form into a list headed by a fixed symbol. -/
inductive Shorthand where
  | quote
  | quasiquote
  | unquote
  | spliceUnquote
  | deref
deriving DecidableEq, Repr, Inhabited

namespace Shorthand

/-- The symbol that heads the list a shorthand stands for (`parse_reader_macro`). -/
def name : Shorthand → String
  | quote => "quote"
  | quasiquote => "quasiquote"
  | unquote => "unquote"
  | spliceUnquote => "splice-unquote"
  | deref => "deref"

/-- The characters of the mark. -/
def spelling : Shorthand → List Char
  | quote => ['\x27']
  | quasiquote => ['\x60']
  | unquote => ['~']
  | spliceUnquote => ['~', '@']
  | deref => ['@']

end Shorthand

/-- The kinds of token (`TokenKind`). A string carries its decoded text, an atom its spelling. -/
inductive TokenKind where
  | opening (bracket : Bracket)
  | closing (bracket : Bracket)
  | shorthand (mark : Shorthand)
  /-- The mark before metadata. -/
  | caret
  | str (text : String)
  | atom (text : String)
deriving DecidableEq, Repr, Inhabited

/-- How a token is named in messages (`TokenKind.fmt`). A string is quoted so that every character can be
told. -/
def TokenKind.display : TokenKind → String
  | opening bracket => bracket.openChar.toString
  | closing bracket => bracket.closeChar.toString
  | shorthand mark => String.ofList mark.spelling
  | caret => "^"
  | str text => shown text
  | atom text => text

/-- A token and where it stands (`Token`). -/
structure Token where
  kind : TokenKind
  span : Span
deriving DecidableEq, Repr, Inhabited

end MiniLisp
