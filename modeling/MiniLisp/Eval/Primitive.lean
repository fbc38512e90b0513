import MiniLisp.Eval.Basic
import MiniLisp.Number
import MiniLisp.Value.Equality

/-! The primitives as functions from arguments to a result. Only writing has an effect besides. -/

namespace MiniLisp

namespace Primitive

/-- The number that an argument is (`expect_number`). -/
def number (primitive : Primitive) : Value → Except EvalError Int64
  | .num n => .ok n
  | other => .error (.wrongType primitive .number other)

theorem number_error {argument : Value} (other : ∀ word, argument ≠ .num word)
    (primitive : Primitive) :
    number primitive argument = .error (.wrongType primitive .number argument) := by
  cases argument with
  | num word => exact (other word rfl).elim
  | _ => rfl

/-- Combines a start with the arguments from left to right (`fold_numbers`). At each argument its kind is
looked at first, then whether the result is a word. -/
def foldNumbers (primitive : Primitive) (combine : Int64 → Int64 → Option Int64) :
    Int64 → List Value → Except EvalError Int64
  | total, [] => .ok total
  | total, argument :: arguments => do
    let n ← number primitive argument
    match combine total n with
    | some total => foldNumbers primitive combine total arguments
    | none => .error (.overflow primitive)

/-- The first argument less the others; zero if there is none (`prim_sub`). -/
def difference : List Value → Except EvalError Int64
  | [] => .ok 0
  | first :: others => do foldNumbers sub Number.sub? (← number sub first) others

/-- The floor of the dividend over the product of the divisors (`prim_div`). -/
def divide (dividend : Int64) (divisors : List Int64) : Except EvalError Int64 :=
  if 0 ∈ divisors then .error .divisionByZero
  else
    match Number.ofInt? (Number.quotientByProduct dividend divisors) with
    | some word => .ok word
    | none => .error (.overflow div)

/-- The first argument divided by all others (`prim_div`). A single argument divides one, and no argument
gives one. All arguments must be numbers before anything is divided. -/
def quotient (arguments : List Value) : Except EvalError Int64 := do
  match ← arguments.mapM (number div) with
  | [] => .ok 1
  | [divisor] => divide 1 [divisor]
  | dividend :: divisors => divide dividend divisors

/-- Whether every two neighbours are related. -/
def chained {α : Type} (related : α → α → Bool) : List α → Bool
  | first :: second :: rest => related first second && chained related (second :: rest)
  | _ => true

/-- Whether two or more numbers are in order (`compare_numbers`). -/
def ordered (primitive : Primitive) (related : Int → Int → Bool) (arguments : List Value) :
    Except EvalError Value := do
  if arguments.length < 2 then
    .error (.arity (.primitive primitive) (.atLeast 2) arguments.length)
  else
    let numbers ← arguments.mapM (number primitive)
    .ok (.bool (chained (fun left right => related left.toInt right.toInt) numbers))

/-- Whether all arguments are equal, each one to the next (`prim_equals`). -/
def allEqual (arguments : List Value) : Except EvalError Value :=
  match arguments with
  | [] => .error (.arity (.primitive equal) (.atLeast 1) 0)
  | _ => .ok (.bool (chained Value.equals arguments))

/-- A value in front of a list makes a longer list; in front of anything else it makes a pair
(`prim_cons`). -/
def construct : List Value → Except EvalError Value
  | [] => .error .missingCar
  | [first] => .ok (.pair first .nil)
  | [first, .list items] => .ok (.list (first :: items))
  | [first, second] => .ok (.pair first second)
  | arguments => .error (.arity (.primitive cons) (.between 0 2) arguments.length)

/-- Runs a function of one argument (`arity_error`). -/
def unary (primitive : Primitive) (result : Value → Except EvalError Value) :
    List Value → Except EvalError Value
  | [argument] => result argument
  | arguments => .error (.arity (.primitive primitive) (.exactly 1) arguments.length)

/-- The first part of a pair or the first element of a list (`prim_car`). -/
def first : Value → Except EvalError Value
  | .pair part _ => .ok part
  | .list (item :: _) => .ok item
  | other => .error (.wrongType car .pair other)

/-- What follows the first part or element (`prim_cdr`). Nothing follows nil or the empty list. -/
def remainder : Value → Except EvalError Value
  | .pair _ part => .ok part
  | .list items => .ok (.list items.tail)
  | .nil => .ok .nil
  | other => .error (.wrongType cdr .pair other)

/-- The number of elements or entries (`prim_count`). -/
def size (value : Value) : Except EvalError Nat :=
  match value with
  | .nil => .ok 0
  | .list items => .ok items.length
  | .vec items => .ok items.length
  | .map _ entries => .ok entries.length
  | .pair _ _ =>
    match value.items? with
    | some items => .ok items.length
    | none => .error (.wrongType count .properList value)
  | _ => .error (.wrongType count .sequence value)

/-- Whether there are no elements or entries (`prim_is_empty`). A pair always has some. -/
def hasNone : Value → Except EvalError Bool
  | .nil => .ok true
  | .list items => .ok items.isEmpty
  | .vec items => .ok items.isEmpty
  | .map _ entries => .ok entries.isEmpty
  | .pair _ _ => .ok false
  | other => .error (.wrongType isEmpty .sequence other)

/-- Whether a value is a list or a proper chain of pairs (`prim_is_list`). -/
def listLike : Value → Bool
  | .list _ => true
  | .vec _ => false
  | other => other.items?.isSome

/-- Whether a value has a first part or element and a remainder (`prim_is_pair`). -/
def pairLike : Value → Bool
  | .pair _ _ => true
  | .list items => !items.isEmpty
  | _ => false

/-- The result of a primitive (`PRIMITIVES`). -/
def result (primitive : Primitive) (arguments : List Value) : Except EvalError Value :=
  match primitive with
  | add => .num <$> foldNumbers add Number.add? 0 arguments
  | sub => .num <$> difference arguments
  | mul => .num <$> foldNumbers mul Number.mul? 1 arguments
  | div => .num <$> quotient arguments
  | equal => allEqual arguments
  | less => ordered less (fun left right => left < right) arguments
  | lessOrEqual => ordered lessOrEqual (fun left right => left ≤ right) arguments
  | greater => ordered greater (fun left right => left > right) arguments
  | greaterOrEqual => ordered greaterOrEqual (fun left right => left ≥ right) arguments
  | cons => construct arguments
  | list => .ok (.list arguments)
  | isList => unary isList (fun value => .ok (.bool (listLike value))) arguments
  | isEmpty => unary isEmpty (fun value => .bool <$> hasNone value) arguments
  | count =>
    unary count (fun value => do
      match Number.ofInt? (← size value) with
      | some word => .ok (.num word)
      | none => .error (.overflow count)) arguments
  | typeOf => unary typeOf (fun value => .ok (.sym ⟨":" ++ value.typeName⟩)) arguments
  | isPair => unary isPair (fun value => .ok (.bool (pairLike value))) arguments
  | car => unary car first arguments
  | cdr => unary cdr remainder arguments
  | prn => .ok .nil

/-- Runs a primitive (`prim_prn`). Writing shows all arguments on one line. -/
def run (primitive : Primitive) (arguments : List Value) : EvalM Value := do
  if primitive = prn then EvalM.write (Value.printLine arguments)
  EvalM.ofExcept (primitive.result arguments)

end Primitive

end MiniLisp
