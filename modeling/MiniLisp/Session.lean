import MiniLisp.Eval.Evaluate
import MiniLisp.Reader.Basic

/-! Sessions: texts are read and evaluated one after the other over one store, so that the
definitions of one are seen by the next. A text that does not read leaves the session as it was. -/

namespace MiniLisp

/-- The state between two texts: the store, and the number for the next map literal (`Session`). -/
structure Session where
  store : Store
  literals : Nat

/-- What came of reading and evaluating a text. -/
inductive Outcome where
  | value (value : Value)
  | unread (error : ReadError)
  | failed (error : EvalError)
  /-- The allowed depth was used up. -/
  | exhausted

/-- What a session answers to a line. -/
inductive Reply where
  | printed (text : String)
  /-- The line holds no form. -/
  | nothing
  | unread (error : ReadError)
  | failed (error : EvalError)
  /-- The allowed depth was used up. -/
  | exhausted

/-- The answer for an outcome: a value is printed, and a text without a form is no error. -/
def Outcome.reply : Outcome → Reply
  | value result => .printed result.print
  | unread .empty => .nothing
  | unread error => .unread error
  | failed error => .failed error
  | exhausted => .exhausted

namespace Session

/-- A session in which nothing was evaluated yet (`Session.new`). -/
def initial : Session := ⟨Store.initial, 0⟩

/-- A depth of evaluation that no program reaches in practice. -/
def ampleDepth : Nat := 1000000000

/-- The session with nothing written and nothing logged. -/
def cleared (session : Session) : Session := { session with store := session.store.cleared }

/-- Runs a computation on the store of a session. -/
def perform (session : Session) (computation : EvalM Value) : Session × Outcome :=
  match computation.run.run session.store with
  | (.ok value, store) => ({ session with store := store }, .value value)
  | (.error (.error error), store) => ({ session with store := store }, .failed error)
  | (.error .exhausted, store) => ({ session with store := store }, .exhausted)

/-- Reads a text and evaluates its form in a scope. -/
def evaluate (session : Session) (depth scope : Nat) (text : String) : Session × Outcome :=
  match read session.literals text with
  | .error error => (session, .unread error)
  | .ok form =>
    ({ session with literals := form.literals }).perform
      (MiniLisp.evaluate depth scope form.value)

/-- Reads a line, evaluates its form in the global scope and prints the value (`Session.rep`). -/
def rep (session : Session) (depth : Nat) (line : String) : Session × Reply :=
  let (session, outcome) := session.evaluate depth Store.globalScope line
  (session, outcome.reply)

end Session

end MiniLisp
