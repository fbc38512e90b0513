import MiniLisp.Scope
import MiniLisp.SpecialForm
import MiniLisp.Value.Printer

/-! What evaluation reads and changes besides its result: the scopes, the output, and a log of the
steps that a program can be seen to take. -/

namespace MiniLisp

/-- A step of evaluation that is worth a line in the log. -/
inductive Event where
  /-- A special form was met, before its operands were looked at. -/
  | specialForm (form : SpecialForm)
  /-- A primitive is about to run. -/
  | primitive (function : Primitive) (count : Nat)
  /-- A closure with a fitting number of arguments is about to run. -/
  | closure (count : Nat)
  /-- A name was bound. -/
  | binding (name : Symbol)
  /-- A definition has its value and is about to bind it in a scope. -/
  | definition (scope : Nat) (name : Symbol) (value : Value)

/-- The line of the log for an event, its level first. -/
def Event.line : Event → String
  | specialForm form => "TRACE special form '" ++ form.name ++ "'"
  | primitive function count =>
    "TRACE applying primitive '" ++ function.name ++ "' to " ++ toString count ++ " args"
  | closure count => "TRACE applying closure to " ++ toString count ++ " args"
  | binding name => "TRACE binding '" ++ name.name ++ "'"
  | definition _ name value => "DEBUG def! " ++ name.name ++ " = " ++ value.print

/-- Where output goes. -/
inductive Device where
  | working
  /-- Nothing is taken, for a reason that is told. -/
  | failing (reason : String)
deriving DecidableEq, Repr, Inhabited

/-- The state of a running program. -/
structure Store where
  scopes : Scopes
  /-- The number for the next closure or map. -/
  serial : Nat
  /-- The texts that were written, in order. -/
  output : Array String
  log : Array Event
  device : Device

namespace Store

/-- The scope that a program starts in. -/
def globalScope : Nat := 0

/-- The state in which a program starts. -/
def initial : Store := ⟨#[Scope.global], 0, #[], #[], .working⟩

/-- Adds a scope; its number is the number of scopes before. -/
def addScope (store : Store) (scope : Scope) : Store :=
  { store with scopes := store.scopes.push scope }

/-- Notes an event in the log. -/
def record (store : Store) (event : Event) : Store :=
  { store with log := store.log.push event }

/-- Binds a name in a scope and notes it in the log (`Environment.set`). -/
def bind (store : Store) (scope : Nat) (name : Symbol) (value : Value) : Store :=
  { store.record (.binding name) with scopes := store.scopes.bind scope name value }

/-- Adds a scope inside another one and binds parameters to arguments in it: the fixed ones in order, as
far as there are arguments, then the rest parameter to the list of all further ones (`Environment.bind`). -/
def enter (store : Store) (outer : Nat) (params : Params) (arguments : List Value) : Store :=
  let inner := store.scopes.size
  let fixed := (params.fixed.zip arguments).foldl
    (fun store binding => store.bind inner binding.1 binding.2) (store.addScope (.inside outer))
  match params.rest with
  | none => fixed
  | some name => fixed.bind inner name (.list (arguments.drop params.fixed.length))

/-- The text of all output since it was last cleared. -/
def written (store : Store) : String := String.join store.output.toList

/-- The state with an empty output and an empty log. -/
def cleared (store : Store) : Store := { store with output := #[], log := #[] }

end Store

end MiniLisp
