import MiniLisp.Eval.Params
import MiniLisp.Eval.Primitive
import MiniLisp.Value.Entries

/-! Evaluation of forms. Each definition says what one kind of form does, given a way to evaluate
the forms inside it; `evaluate` ties them together up to a depth. -/

namespace MiniLisp

/-- Applies a function to arguments (`apply`). -/
def apply (eval : Evaluator) (function : Value) (arguments : List Value) : EvalM Value :=
  match function with
  | .prim primitive => do
    EvalM.record (.primitive primitive arguments.length)
    primitive.run arguments
  | .closure _ params body scope =>
    match params.violated? arguments.length with
    | some expected => EvalM.fail (.arity .closure expected arguments.length)
    | none => do
      EvalM.record (.closure arguments.length)
      eval (← EvalM.enter scope params arguments) body
  | head => EvalM.fail (.notCallable head)

/-- Evaluates the entries of a map in order, each key before its value, and inserts what they give one
after the other (`evaluate_hash_map`). -/
def evaluateEntries (eval : Evaluator) (scope : Nat) (entries : Entries) : EvalM Entries :=
  entries.foldlM (fun built entry => do
    let key ← eval scope entry.1
    let value ← eval scope entry.2
    pure (built.insert key value)) []

/-- A definition binds its name in the scope where it stands, once its form has a value (`evaluate_def`). -/
def evaluateDefinition (eval : Evaluator) (scope : Nat) : List Value → EvalM Value
  | [name, form] => do
    let name ← EvalM.ofExcept (nameIn .define name)
    let value ← eval scope form
    EvalM.record (.definition scope name value)
    EvalM.bindName scope name value
    pure value
  | operands => EvalM.fail (.invalidForm (.definition operands.length))

/-- Evaluates bindings in a scope, each one seeing those before it (`evaluate_let`). -/
def evaluateBindings (eval : Evaluator) (scope : Nat) (bindings : Entries) : EvalM Unit :=
  bindings.forM fun binding => do
    let name ← EvalM.ofExcept (nameIn .letIn binding.1)
    let value ← eval scope binding.2
    EvalM.bindName scope name value

/-- A local scope has bindings and perhaps a body, which is evaluated inside it (`evaluate_let`). -/
def evaluateLocalScope (eval : Evaluator) (scope : Nat) (bindings : Value) (body : Option Value) :
    EvalM Value :=
  match bindings.bracketed? with
  | none => EvalM.fail (.malformedBindings (.noSequence bindings))
  | some items =>
    match Entries.pairUp? items with
    | none => EvalM.fail (.malformedBindings (.odd items.length))
    | some bindings => do
      let inner ← EvalM.enter scope ⟨[], none⟩ []
      evaluateBindings eval inner bindings
      match body with
      | some body => eval inner body
      | none => pure .nil

/-- A choice evaluates its condition and then one of its branches (`evaluate_if`). -/
def evaluateChoice (eval : Evaluator) (scope : Nat) (condition consequent : Value)
    (alternate : Option Value) : EvalM Value := do
  if (← eval scope condition).isTruthy then eval scope consequent
  else
    match alternate with
    | some alternate => eval scope alternate
    | none => pure .nil

/-- A function keeps the scope in which it is made (`evaluate_fn`). -/
def evaluateLambda (scope : Nat) (params : Value) (body : Option Value) : EvalM Value := do
  let params ← EvalM.ofExcept (Params.ofForm params)
  pure (.closure (← EvalM.takeSerial) params (body.getD .nil) scope)

/-- Evaluates a special form from its operands (`evaluate_def`, `evaluate_let`, `evaluate_do`,
`evaluate_if`, `evaluate_fn`, `evaluate_quote`). -/
def evaluateSpecial (eval : Evaluator) (scope : Nat) (form : SpecialForm)
    (operands : List Value) : EvalM Value :=
  match form with
  | .define => evaluateDefinition eval scope operands
  | .letIn =>
    match operands with
    | [bindings] => evaluateLocalScope eval scope bindings none
    | [bindings, body] => evaluateLocalScope eval scope bindings (some body)
    | _ => EvalM.fail (.invalidForm (.localScope operands.length))
  | .sequence => operands.foldlM (fun _ operand => eval scope operand) .nil
  | .choice =>
    match operands with
    | [condition, consequent] => evaluateChoice eval scope condition consequent none
    | [condition, consequent, alternate] =>
      evaluateChoice eval scope condition consequent (some alternate)
    | _ => EvalM.fail (.invalidForm .choice)
  | .lambda =>
    match operands with
    | [params] => evaluateLambda scope params none
    | [params, body] => evaluateLambda scope params (some body)
    | _ => EvalM.fail (.invalidForm (.lambda operands.length))
  | .quote =>
    match operands with
    | [form] => pure form
    | _ => EvalM.fail (.invalidForm .quotation)

/-- The special form that the head of a list names (`special_form`). -/
def SpecialForm.ofHead? : Value → Option SpecialForm
  | .sym symbol => ofName? symbol.name
  | _ => none

/-- Evaluates a list that is not empty: a special form, or a call, whose head and operands are evaluated
from left to right before the head is applied (`evaluate_list`, `evaluate_call`). -/
def evaluateList (eval : Evaluator) (scope : Nat) (head : Value) (operands : List Value) :
    EvalM Value :=
  match SpecialForm.ofHead? head with
  | some form => do
    EvalM.record (.specialForm form)
    evaluateSpecial eval scope form operands
  | none => do
    let function ← eval scope head
    let arguments ← operands.mapM (eval scope)
    apply eval function arguments

/-- Evaluates a form, given a way to evaluate the forms inside it (`evaluate`). Symbols other than
keywords are looked up, brackets with something in them are evaluated part by part, and all else stands
for itself. -/
def evaluateStep (eval : Evaluator) (scope : Nat) (form : Value) : EvalM Value :=
  match form with
  | .sym symbol => if symbol.isKeyword then pure form else EvalM.lookup scope symbol
  | .list [] => pure form
  | .list (head :: operands) => evaluateList eval scope head operands
  | .vec items => return .vec (← items.mapM (eval scope))
  | .map _ entries => do
    let built ← evaluateEntries eval scope entries
    pure (.map (.made (← EvalM.takeSerial)) built)
  | .nil | .bool _ | .num _ | .str _ | .pair _ _ | .prim _ | .closure _ _ _ _ => pure form

/-- Evaluates a form in a scope, if forms and calls are nested no deeper than the given depth
(`evaluate`). -/
def evaluate : Nat → Evaluator
  | 0 => fun _ _ => throw .exhausted
  | depth + 1 => evaluateStep (evaluate depth)

end MiniLisp
