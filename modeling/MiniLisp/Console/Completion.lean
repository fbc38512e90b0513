import MiniLisp.Scope
import MiniLisp.SpecialForm
import MiniLisp.Token.Lexer

/-! Completion of the name before the cursor. -/

namespace MiniLisp

/-- The names that may stand in place of the text from an offset up to the cursor. -/
structure Completion where
  start : Nat
  candidates : List String
deriving DecidableEq, Repr, Inhabited

/-- The atom that ends at the cursor, with its offset (`MalispCompleter.complete`). -/
def atomBefore? (line : List Char) (cursor : Nat) : Option (Nat × String) :=
  match tokensFrom 0 (takeBytes cursor line) with
  | .error _ => none
  | .ok tokens =>
    match tokens.getLast? with
    | some ⟨.atom text, span⟩ => if span.stop = cursor then some (span.start, text) else none
    | _ => none

/-- The names that a program can use in a scope: those bound there and those of special forms. -/
def usableNames (scopes : Scopes) (scope : Nat) : List String :=
  Names.sort (scopes.visible scope ++ SpecialForm.names)

/-- Completes the atom that ends at the cursor, if there is one (`MalispCompleter.complete`). -/
def complete (scopes : Scopes) (scope : Nat) (line : String) (cursor : Nat) : Completion :=
  match atomBefore? line.toList cursor with
  | none => ⟨cursor, []⟩
  | some (start, text) =>
    ⟨start, (usableNames scopes scope).filter fun name =>
      text.toList.isPrefixOf name.toList⟩

end MiniLisp
