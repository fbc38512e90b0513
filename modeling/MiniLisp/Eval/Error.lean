import MiniLisp.SpecialForm
import MiniLisp.Value.Printer

/-! What can go wrong when a form is evaluated, and how it is worded. -/

namespace MiniLisp

/-- How many arguments something takes (`Arity`). -/
inductive Arity where
  | exactly (count : Nat)
  | atLeast (count : Nat)
  | between (fewest most : Nat)
deriving DecidableEq, Repr, Inhabited

/-- The wording of an arity (`Arity.fmt`). -/
def Arity.phrase : Arity → String
  | exactly count => "exactly " ++ toString count
  | atLeast count => "at least " ++ toString count
  | between fewest most => "between " ++ toString fewest ++ " and " ++ toString most

/-- Something that takes arguments. All closures go by one name. -/
inductive Callee where
  | primitive (function : Primitive)
  | closure
deriving DecidableEq, Repr, Inhabited

/-- The name of a callee in messages. -/
def Callee.name : Callee → String
  | primitive function => function.name
  | closure => "#<function>"

/-- The kinds of value that a primitive asks for. -/
inductive Wanted where
  | number
  | pair
  | sequence
  | properList
deriving DecidableEq, Repr, Inhabited

/-- The wording of a wanted kind. -/
def Wanted.phrase : Wanted → String
  | number => "number"
  | pair => "pair"
  | sequence => "sequence"
  | properList => "proper list"

/-- The ways in which a special form can be ill-formed. -/
inductive FormFault where
  /-- A definition wants a name and a form. -/
  | definition (count : Nat)
  /-- A local scope wants bindings and at most one body. -/
  | localScope (count : Nat)
  /-- A choice wants two or three operands. -/
  | choice
  /-- A function wants parameters and at most one body. -/
  | lambda (count : Nat)
  /-- The parameters of a function are no list or vector. -/
  | parameters (found : Value)
  /-- The marker of the rest parameter is not followed by exactly one name. -/
  | restParameter
  /-- A quotation wants one form. -/
  | quotation
deriving DecidableEq

namespace FormFault

/-- The special form that has the fault. -/
def form : FormFault → SpecialForm
  | definition _ => .define
  | localScope _ => .letIn
  | choice => .choice
  | lambda _ => .lambda
  | parameters _ => .lambda
  | restParameter => .lambda
  | quotation => .quote

/-- The wording of the fault. -/
def reason : FormFault → String
  | definition count => "expected a name and a value, got " ++ toString count ++ " operands"
  | localScope count =>
    "expected bindings and an optional body, got " ++ toString count ++ " operands"
  | choice => "expected condition, consequent, and optional alternate"
  | lambda count =>
    "expected parameters and a single body form, got " ++ toString count ++ " operands"
  | parameters found => "parameters must be a list or vector, got " ++ found.typeName
  | restParameter => "'&' must be followed by exactly one parameter"
  | quotation => "quote expects exactly one argument"

end FormFault

/-- The ways in which the bindings of a local scope can be ill-formed. -/
inductive BindingsFault where
  /-- They are no list or vector. -/
  | noSequence (found : Value)
  /-- The last name has no form. -/
  | odd (count : Nat)
deriving DecidableEq

/-- The wording of the fault. -/
def BindingsFault.reason : BindingsFault → String
  | noSequence found => "expected a list or vector, got " ++ found.typeName
  | odd count => "expected an even number of forms, got " ++ toString count

/-- The reasons why a form has no value (`EvalError`). -/
inductive EvalError where
  /-- A symbol is bound in no visible scope. -/
  | unbound (name : Symbol)
  /-- A pair was asked for without a first part. -/
  | missingCar
  /-- The head of a call is no function. -/
  | notCallable (head : Value)
  /-- Something else stands where a form wants a name. -/
  | notASymbol (form : SpecialForm) (found : Value)
  | invalidForm (fault : FormFault)
  | malformedBindings (fault : BindingsFault)
  /-- A function was given the wrong number of arguments. -/
  | arity (callee : Callee) (expected : Arity) (got : Nat)
  /-- A primitive was given a value of the wrong kind. -/
  | wrongType (primitive : Primitive) (expected : Wanted) (got : Value)
  | divisionByZero
  /-- The result of a primitive is no word. -/
  | overflow (primitive : Primitive)
  /-- A text cannot be written, for a reason that the device gives. -/
  | output (reason : String)
deriving DecidableEq

/-- The wording of an error. -/
def EvalError.message : EvalError → String
  | unbound name => "'" ++ name.name ++ "' not found"
  | missingCar => "cannot construct a pair without a car"
  | notCallable head => "expected a function, but got: " ++ head.print
  | notASymbol form found => "'" ++ form.name ++ "' expects a symbol, but got: " ++ found.print
  | invalidForm fault => "invalid '" ++ fault.form.name ++ "' form: " ++ fault.reason
  | malformedBindings fault =>
    "malformed '" ++ SpecialForm.letIn.name ++ "' bindings: " ++ fault.reason
  | arity callee expected got =>
    "'" ++ callee.name ++ "' expects " ++ expected.phrase ++ " arguments, got " ++ toString got
  | wrongType primitive expected got =>
    primitive.name ++ ": expected " ++ expected.phrase ++ ", got " ++ got.typeName
  | divisionByZero => "division by zero"
  | overflow primitive => "integer overflow in '" ++ primitive.name ++ "'"
  | output reason => "could not write output: " ++ reason

end MiniLisp
