import MiniLisp.Console.Mode
import MiniLisp.Token.Basic

/-! Whether a text that was typed so far is ready to be read: its brackets are closed, some are
still open, or one can never match. Brackets in strings and comments do not count. -/

namespace MiniLisp

/-- The verdict on a text. -/
inductive Verdict where
  | valid
  | incomplete
  /-- A closing bracket at an offset does not match. -/
  | unmatched (bracket : Bracket) (offset : Nat)
deriving DecidableEq, Repr, Inhabited

/-- The notice about a bracket that does not match. -/
def unmatchedNotice (bracket : Bracket) (offset : Nat) : String :=
  "  - Unmatched '" ++ bracket.closeChar.toString ++ "' at position " ++ toString offset

/-- The verdict on the rest of a text, given the open brackets before it, the innermost first
(`MalispValidator.validate`). -/
def validateFrom (offset : Nat) (mode : Mode) (opened : List Bracket) : List Char → Verdict
  | [] => if mode.inString || !opened.isEmpty then .incomplete else .valid
  | c :: rest =>
    let following := offset + c.utf8Size
    let next := mode.after (· == '\n') c
    if mode = .code then
      match Bracket.ofOpen? c, Bracket.ofClose? c, opened with
      | some bracket, _, _ => validateFrom following next (bracket :: opened) rest
      | none, some bracket, innermost :: outer =>
        if innermost = bracket then validateFrom following next outer rest
        else .unmatched bracket offset
      | none, some bracket, [] => .unmatched bracket offset
      | none, none, _ => validateFrom following next opened rest
    else validateFrom following next opened rest

/-- The verdict on a text (`MalispValidator.validate`). -/
def validate (text : List Char) : Verdict := validateFrom 0 .code [] text

end MiniLisp
