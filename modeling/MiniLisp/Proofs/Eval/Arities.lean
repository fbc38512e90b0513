import MiniLisp.Eval.Evaluate

/-! Errors about the number of arguments. Such an error names how many arguments are taken and how many
there were, and it tells the truth: what it blames does violate what it asks for. Here this is shown for
all that ends with an error by itself: primitives, names, and parameters. -/

namespace MiniLisp

/-- The numbers of arguments that an arity allows. -/
def Arity.Admits : Arity → Nat → Prop
  | exactly expected, count => count = expected
  | atLeast fewest, count => fewest ≤ count
  | between fewest most, count => fewest ≤ count ∧ count ≤ most

/-- An error is truthful unless it blames a number of arguments that is allowed. -/
def EvalError.Truthful : EvalError → Prop
  | arity _ expected got => ¬ expected.Admits got
  | _ => True

/-! ### Primitives -/

/-- A result that is no error, or a truthful one. -/
def Truthful (result : Except EvalError α) : Prop := ∀ error, result = .error error → error.Truthful

section
variable {α β : Type}

theorem truthful_ok (value : α) : Truthful (.ok value) := nofun

theorem truthful_error {error : EvalError} (truthful : error.Truthful) :
    Truthful (.error error : Except EvalError α) := by
  intro other same
  cases same
  exact truthful

theorem Truthful.bind {result : Except EvalError α} {next : α → Except EvalError β}
    (truthful : Truthful result) (rest : ∀ value, Truthful (next value)) :
    Truthful (result >>= next) := by
  cases result with
  | error error => exact truthful_error (truthful error rfl)
  | ok value => exact rest value

theorem Truthful.map {result : Except EvalError α} (truthful : Truthful result) (f : α → β) :
    Truthful (f <$> result) := by
  cases result with
  | error error => exact truthful_error (truthful error rfl)
  | ok value => exact truthful_ok (f value)

theorem Truthful.mapM {f : α → Except EvalError β} (each : ∀ item, Truthful (f item))
    (items : List α) : Truthful (items.mapM f) := by
  induction items with
  | nil => exact truthful_ok []
  | cons item items ih =>
    rw [List.mapM_cons]
    exact (each item).bind fun result => ih.bind fun results => truthful_ok (result :: results)

end

namespace Primitive

theorem number_truthful (primitive : Primitive) (argument : Value) :
    Truthful (number primitive argument) := by
  unfold number
  split
  · exact truthful_ok _
  · exact truthful_error trivial

theorem foldNumbers_truthful (primitive : Primitive) (combine : Int64 → Int64 → Option Int64)
    (total : Int64) (arguments : List Value) :
    Truthful (foldNumbers primitive combine total arguments) := by
  induction arguments generalizing total with
  | nil => exact truthful_ok total
  | cons argument arguments ih =>
    refine (number_truthful primitive argument).bind fun n => ?_
    cases combine total n with
    | some total => exact ih total
    | none => exact truthful_error trivial

theorem divide_truthful (dividend : Int64) (divisors : List Int64) :
    Truthful (divide dividend divisors) := by
  unfold divide
  split
  · exact truthful_error trivial
  · split
    · exact truthful_ok _
    · exact truthful_error trivial

theorem quotient_truthful (arguments : List Value) : Truthful (quotient arguments) := by
  refine (Truthful.mapM (number_truthful div) arguments).bind fun numbers => ?_
  split
  · exact truthful_ok 1
  · exact divide_truthful 1 _
  · exact divide_truthful _ _

theorem ordered_truthful (primitive : Primitive) (related : Int → Int → Bool)
    (arguments : List Value) : Truthful (ordered primitive related arguments) := by
  unfold ordered
  split
  · next few =>
    refine truthful_error ?_
    simp only [EvalError.Truthful, Arity.Admits]
    omega
  · exact (Truthful.mapM (number_truthful primitive) arguments).bind fun _ => truthful_ok _

theorem construct_truthful (arguments : List Value) : Truthful (construct arguments) := by
  unfold construct
  split
  · exact truthful_error trivial
  · exact truthful_ok _
  · exact truthful_ok _
  · exact truthful_ok _
  · next none one _ two =>
    refine truthful_error fun ⟨_, most⟩ => ?_
    rcases arguments with _ | ⟨first, _ | ⟨second, _ | ⟨third, others⟩⟩⟩
    · exact none rfl
    · exact one first rfl
    · exact two first second rfl
    · simp at most

/-- A primitive of one argument fails truthfully if it does so on one argument. -/
theorem unary_truthful (primitive : Primitive) {result : Value → Except EvalError Value}
    (each : ∀ argument, Truthful (result argument)) (arguments : List Value) :
    Truthful (unary primitive result arguments) := by
  unfold unary
  split
  · exact each _
  · next other =>
    refine truthful_error ?_
    intro one
    obtain ⟨argument, same⟩ := List.length_eq_one_iff.1 one
    exact other argument same

theorem first_truthful (value : Value) : Truthful (first value) := by
  unfold first
  split
  · exact truthful_ok _
  · exact truthful_ok _
  · exact truthful_error trivial

theorem remainder_truthful (value : Value) : Truthful (remainder value) := by
  unfold remainder
  split
  · exact truthful_ok _
  · exact truthful_ok _
  · exact truthful_ok _
  · exact truthful_error trivial

theorem size_truthful (value : Value) : Truthful (size value) := by
  unfold size
  split
  · exact truthful_ok _
  · exact truthful_ok _
  · exact truthful_ok _
  · exact truthful_ok _
  · split
    · exact truthful_ok _
    · exact truthful_error trivial
  · exact truthful_error trivial

theorem hasNone_truthful (value : Value) : Truthful (hasNone value) := by
  unfold hasNone
  split
  case h_6 => exact truthful_error trivial
  all_goals exact truthful_ok _

/-- A primitive that complains of the number of its arguments is right. -/
theorem result_truthful (primitive : Primitive) (arguments : List Value) :
    Truthful (primitive.result arguments) := by
  cases primitive with
  | add => exact (foldNumbers_truthful _ _ 0 arguments).map _
  | sub =>
    refine Truthful.map ?_ _
    cases arguments with
    | nil => exact truthful_ok 0
    | cons first others =>
      exact (number_truthful sub first).bind fun n => foldNumbers_truthful _ _ n others
  | mul => exact (foldNumbers_truthful _ _ 1 arguments).map _
  | div => exact (quotient_truthful arguments).map _
  | equal =>
    cases arguments with
    | nil => exact truthful_error (Nat.not_succ_le_zero 0)
    | cons => exact truthful_ok _
  | less | lessOrEqual | greater | greaterOrEqual =>
    rw [result]
    apply ordered_truthful
  | cons => exact construct_truthful arguments
  | list => exact truthful_ok _
  | isList | typeOf | isPair => exact unary_truthful _ (fun _ => truthful_ok _) arguments
  | isEmpty => exact unary_truthful _ (fun value => (hasNone_truthful value).map _) arguments
  | count =>
    refine unary_truthful _ (fun value => (size_truthful value).bind fun n => ?_) arguments
    generalize Number.ofInt? n = counted
    cases counted with
    | some => exact truthful_ok _
    | none => exact truthful_error trivial
  | car => exact unary_truthful _ first_truthful arguments
  | cdr => exact unary_truthful _ remainder_truthful arguments
  | prn => exact truthful_ok _

end Primitive

/-! ### Names and parameters -/

theorem nameIn_truthful (form : SpecialForm) (name : Value) : Truthful (nameIn form name) := by
  cases name with
  | sym symbol => exact truthful_ok symbol
  | _ => exact truthful_error trivial

namespace Params

theorem ofForm_truthful (form : Value) : Truthful (ofForm form) := by
  unfold ofForm
  split
  · exact truthful_error trivial
  · next items _ =>
    refine (Truthful.mapM (nameIn_truthful .lambda) items).bind fun names => ?_
    split
    · exact truthful_ok _
    · exact truthful_error trivial

/-- How many arguments parameters take. -/
def arity (params : Params) : Arity :=
  match params.rest with
  | some _ => .atLeast params.fixed.length
  | none => .exactly params.fixed.length

/-- Whether a number of arguments does not fit: there are too few for the fixed parameters, or too many
and no rest parameter. -/
def Misfit (params : Params) (count : Nat) : Prop :=
  count < params.fixed.length ∨ params.fixed.length < count ∧ params.rest = none

theorem not_admits_arity_iff {params : Params} :
    ¬ params.arity.Admits count ↔ params.Misfit count := by
  obtain ⟨fixed, rest⟩ := params
  cases rest with
  | none =>
    simp only [arity, Arity.Admits, Misfit, and_true]
    omega
  | some name =>
    simp only [arity, Arity.Admits, Misfit, reduceCtorEq, and_false, or_false]
    omega

theorem violated?_of_admits {params : Params} (admits : params.arity.Admits count) :
    params.violated? count = none := by
  obtain ⟨fixed, rest⟩ := params
  cases rest with
  | none => exact if_pos admits
  | some name => exact if_neg (Nat.not_lt.2 admits)

theorem violated?_of_not_admits {params : Params} (misfit : ¬ params.arity.Admits count) :
    params.violated? count = some params.arity := by
  obtain ⟨fixed, rest⟩ := params
  cases rest with
  | none => exact if_neg misfit
  | some name => exact if_pos (Nat.not_le.1 misfit)

theorem not_admits_of_violated? {params : Params}
    (violated : params.violated? count = some expected) : ¬ expected.Admits count := by
  by_cases admits : params.arity.Admits count
  · rw [violated?_of_admits admits] at violated
    cases violated
  · rw [violated?_of_not_admits admits] at violated
    cases violated
    exact admits

end Params

end MiniLisp
