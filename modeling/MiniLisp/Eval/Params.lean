import MiniLisp.Eval.Error

/-! Names and parameters as forms spell them. -/

namespace MiniLisp

/-- The name that stands in a special form (`expect_symbol`). -/
def nameIn (form : SpecialForm) : Value → Except EvalError Symbol
  | .sym symbol => .ok symbol
  | found => .error (.notASymbol form found)

namespace Params

/-- The name before the rest parameter. -/
def restMarker : String := "&"

/-- Parameters from their names (`parse_params`). The first marker must be followed by one name, the
last. -/
def ofNames? : List Symbol → Option Params
  | [] => some ⟨[], none⟩
  | name :: names =>
    if name.name = restMarker then
      match names with
      | [rest] => some ⟨[], some rest⟩
      | _ => none
    else (fun params => ⟨name :: params.fixed, params.rest⟩) <$> ofNames? names

/-- Parameters from the form that lists them (`parse_params`). -/
def ofForm (form : Value) : Except EvalError Params :=
  match form.bracketed? with
  | none => .error (.invalidForm (.parameters form))
  | some items => do
    let names ← items.mapM (nameIn .lambda)
    match ofNames? names with
    | some params => .ok params
    | none => .error (.invalidForm .restParameter)

/-- The arity that a number of arguments violates (`check_closure_arity`). -/
def violated? (params : Params) (count : Nat) : Option Arity :=
  let fixed := params.fixed.length
  match params.rest with
  | some _ => if count < fixed then some (.atLeast fixed) else none
  | none => if count = fixed then none else some (.exactly fixed)

end Params

end MiniLisp
