import MiniLisp.Eval.Error
import MiniLisp.Store

/-! Computations that evaluation is made of. They change the store and end with a value, with an
error, or without an answer because the allowed depth was used up; whatever the end, what was done
to the store until then stays done. -/

namespace MiniLisp

/-- Why there is no value. -/
inductive Halt where
  | error (error : EvalError)
  /-- The allowed depth was used up, which says nothing about the program. -/
  | exhausted
deriving DecidableEq

/-- A computation on the store. -/
abbrev EvalM := ExceptT Halt (StateM Store)

/-- A way to evaluate a form in a scope. -/
abbrev Evaluator := Nat → Value → EvalM Value

namespace EvalM

/-- Ends with an error. -/
def fail {α : Type} (error : EvalError) : EvalM α := throw (.error error)

/-- Does nothing to the store. -/
def ofExcept {α : Type} : Except EvalError α → EvalM α
  | .ok value => pure value
  | .error error => fail error

/-- Notes an event in the log. -/
def record (event : Event) : EvalM Unit := modify fun store => store.record event

/-- Binds a name in a scope (`Environment.set`). -/
def bindName (scope : Nat) (name : Symbol) (value : Value) : EvalM Unit :=
  modify fun store => store.bind scope name value

/-- A new scope inside another one, with parameters bound to arguments (`Environment.bind`). -/
def enter (outer : Nat) (params : Params) (arguments : List Value) : EvalM Nat :=
  modifyGet fun store => (store.scopes.size, store.enter outer params arguments)

/-- The number for a new closure or map, which no other one gets. -/
def takeSerial : EvalM Nat :=
  modifyGet fun store => (store.serial, { store with serial := store.serial + 1 })

/-- The value of a name as seen from a scope (`Environment.get`). -/
def lookup (scope : Nat) (name : Symbol) : EvalM Value := do
  match (← get).scopes.lookup scope name with
  | some value => pure value
  | none => fail (.unbound name)

/-- Writes a text, if the device takes it (`prim_prn`). -/
def write (text : String) : EvalM Unit := do
  match (← get).device with
  | .working => modify fun store => { store with output := store.output.push text }
  | .failing reason => fail (.output reason)

end EvalM

end MiniLisp
