/-! What a character of a line is part of, decided from left to right: code, a string or a comment.
The validator and the highlighter differ only in what closes a comment. -/

namespace MiniLisp

/-- Where a scan stands. -/
inductive Mode where
  | code
  | string
  /-- Inside a string, after a backslash. -/
  | escape
  | comment
deriving DecidableEq, Repr, Inhabited

namespace Mode

/-- Where the scan stands after a character. -/
def after (closesComment : Char → Bool) : Mode → Char → Mode
  | code, c => if c = '\x22' then string else if c = ';' then comment else code
  | string, c => if c = '\\' then escape else if c = '\x22' then code else string
  | escape, _ => string
  | comment, c => if closesComment c then code else comment

/-- Whether a string is open. -/
def inString : Mode → Bool
  | string => true
  | escape => true
  | code => false
  | comment => false

end Mode

end MiniLisp
