import MiniLisp.Proofs.Eval.Steps
import MiniLisp.Proofs.Value.Parts

/-! The evaluations that an evaluation is made of. To evaluate a form, other forms are evaluated: those
inside it, or the body of a closure. Each of them starts from the store that the one before it left,
and the first that gives no value is the last. They are listed here in order; the values that decide
how it goes on are those of the evaluator itself. -/

namespace MiniLisp

/-- What follows a computation that ends with a value. Nothing follows another one. -/
def EvalM.whenDone (computation : EvalM α) (store : Store) (next : α → Store → List β) : List β :=
  match computation.run.run store with
  | (.ok value, after) => next value after
  | (.error _, _) => []

/-- The evaluation of a form: where it takes place, and from which store. -/
structure Visit where
  scope : Nat
  form : Value
  store : Store

section
variable (eval : Evaluator)

/-- Forms are evaluated from left to right. -/
def visitsInTurn (scope : Nat) : List Value → Store → List Visit
  | [], _ => []
  | form :: forms, store =>
    ⟨scope, form, store⟩ :: (eval scope form).whenDone store fun _ => visitsInTurn scope forms

/-- The forms of bindings are evaluated from left to right, after each of which its name is bound. -/
def visitsOfBindings (scope : Nat) : Entries → Store → List Visit
  | [], _ => []
  | (name, form) :: bindings, store =>
    match nameIn .letIn name with
    | .error _ => []
    | .ok name =>
      ⟨scope, form, store⟩ :: (eval scope form).whenDone store fun value after =>
        visitsOfBindings scope bindings (after.bind scope name value)

/-- The forms of the bindings and the body of a local scope are evaluated in a new scope. -/
def visitsOfLocalScope (scope : Nat) (bindings : Value) (body : Option Value) (store : Store) :
    List Visit :=
  match bindings.bracketed?.bind Entries.pairUp? with
  | none => []
  | some bindings =>
    let inner := store.scopes.size
    let entered := store.enter scope ⟨[], none⟩ []
    visitsOfBindings eval inner bindings entered ++
      (evaluateBindings eval inner bindings).whenDone entered fun _ ready =>
        body.toList.map fun body => ⟨inner, body, ready⟩

/-- The condition of a choice is evaluated, and then the branch that it chooses. -/
def visitsOfChoice (scope : Nat) (condition consequent : Value) (alternate : Option Value)
    (store : Store) : List Visit :=
  ⟨scope, condition, store⟩ :: (eval scope condition).whenDone store fun tested after =>
    (if tested.isTruthy then some consequent else alternate).toList.map fun branch =>
      ⟨scope, branch, after⟩

/-- What is evaluated for a special form. Nothing is, if it is ill-formed. -/
def visitsOfSpecial (scope : Nat) (form : SpecialForm) (operands : List Value) (store : Store) :
    List Visit :=
  match form, operands with
  | .define, [name, form] =>
    match nameIn .define name with
    | .error _ => []
    | .ok _ => [⟨scope, form, store⟩]
  | .letIn, [bindings] => visitsOfLocalScope eval scope bindings none store
  | .letIn, [bindings, body] => visitsOfLocalScope eval scope bindings (some body) store
  | .sequence, operands => visitsInTurn eval scope operands store
  | .choice, [condition, consequent] => visitsOfChoice eval scope condition consequent none store
  | .choice, [condition, consequent, alternate] =>
    visitsOfChoice eval scope condition consequent (some alternate) store
  | _, _ => []

/-- A closure with a fitting number of arguments evaluates its body in a new scope. -/
def visitsOfCall (function : Value) (arguments : List Value) (store : Store) : List Visit :=
  match function with
  | .closure _ params body scope =>
    match params.violated? arguments.length with
    | some _ => []
    | none =>
      let called := store.record (.closure arguments.length)
      [⟨called.scopes.size, body, called.enter scope params arguments⟩]
  | _ => []

/-- The evaluations that one evaluation is made of, in their order. -/
def visits : Visit → List Visit
  | ⟨scope, .list (head :: operands), store⟩ =>
    match SpecialForm.ofHead? head with
    | some form => visitsOfSpecial eval scope form operands (store.record (.specialForm form))
    | none =>
      ⟨scope, head, store⟩ :: (eval scope head).whenDone store fun function after =>
        visitsInTurn eval scope operands after ++
          (operands.mapM (eval scope)).whenDone after fun arguments => visitsOfCall function arguments
  | ⟨scope, .vec items, store⟩ => visitsInTurn eval scope items store
  | ⟨scope, .map _ entries, store⟩ => visitsInTurn eval scope (Entries.flat entries) store
  | _ => []

end

/-! ### What follows a computation -/

namespace EvalM

variable {α β γ : Type}

theorem whenDone_flatMap (computation : EvalM α) (store : Store) (next : α → Store → List β)
    (f : β → List γ) : (computation.whenDone store next).flatMap f =
      computation.whenDone store fun value after => (next value after).flatMap f := by
  unfold whenDone
  split <;> rfl

theorem whenDone_nil (computation : EvalM α) (store : Store) :
    computation.whenDone store (fun _ _ => ([] : List β)) = [] := by
  unfold whenDone
  split <;> rfl

end EvalM

end MiniLisp
