import Mathlib
import MiniLisp.Proofs.Eval.Courses
import MiniLisp.Proofs.Eval.Definitions
import MiniLisp.Proofs.Eval.Depth

/-! Calls of closures. A call with a number of arguments that does not fit fails, and nothing else is
done. Any other call is a local scope in the scope of the closure: its bindings are the parameters with
the arguments, quoted, and its body is the body of the closure. The scope of the call is filled at once
and that of the form binding by binding, with a note in the log for each quotation; but for the log both
come to the same, also where a parameter is named twice. -/

namespace MiniLisp

/-! ### Errors on the way -/

/-- The course of a computation that, if it fails, does not blame a number of arguments that is allowed. -/
def truthfulCourse : Course where
  ready _ := True
  leads _ _ := True
  halts halt := ∀ error, halt = .error error → error.Truthful

theorem truthfulCourse_lasting : truthfulCourse.Lasting :=
  ⟨fun _ => trivial, fun _ _ => trivial, fun _ _ => trivial⟩

theorem truthfulCourse_within (begun store : Store) :
    truthfulCourse.Within truthfulCourse begun store :=
  ⟨trivial, fun _ _ => trivial, fun _ holds => holds⟩

/-- Whatever there is to evaluate, in any scope. -/
def Reach.everything : Reach Nat where
  scope scope := scope
  inside _ new := new
  whole _ _ := True
  inner _ _ := True
  allows _ _ := True
  data _ := True

theorem Reach.everything_closed : everything.Closed where
  scope_inside := rfl
  hereditary := ⟨fun _ _ => trivial, fun _ _ _ => trivial, fun _ => trivial⟩
  child _ _ := trivial
  part _ _ := trivial
  enclosed _ := trivial
  itself _ := trivial
  quoted _ := trivial
  head _ _ := trivial
  define_inside := trivial
  makes _ _ := trivial
  body _ := trivial

theorem truthfulCourse_steers : Reach.everything.Steers fun _ => truthfulCourse where
  lasting _ := truthfulCourse_lasting
  truthful truthful _ := by
    rintro ⟨⟩
    exact truthful
  record _ _ _ := trivial
  bind _ _ _ _ := trivial
  number _ _ := trivial
  lookup _ _ _ _ := trivial
  call _ := by
    refine EvalM.keeps_call truthfulCourse_lasting (fun _ _ _ => trivial) (fun _ _ _ => trivial) ?_
      fun _ _ => trivial
    rintro error truthful _ ⟨⟩
    exact truthful
  enter _ _ := truthfulCourse_within _ _
  enterCall _ _ _ _ := truthfulCourse_within _ _

/-- A call that fails because of a number of arguments, its own or that of a call inside, does not blame a
number that is allowed. -/
theorem apply_truthful
    (failed : (apply (evaluate depth) function arguments).outcome store = .error (.error error)) :
    error.Truthful := by
  have kept : (apply (evaluate depth) function arguments).Keeps truthfulCourse fun _ => True :=
    Reach.apply_keeps Reach.everything_closed truthfulCourse_steers id (fun _ => nofun) depth
      Store.globalScope trivial fun _ _ => trivial
  exact (kept store trivial).halts _ failed error rfl

/-! ### Quoted bindings -/

/-- A form that stands for a value as it is. -/
def Value.quoted (value : Value) : Value := .list [.sym ⟨SpecialForm.quote.name⟩, value]

/-- Names with values as the bindings of a local scope. -/
def quotedBindings (bindings : List (Symbol × Value)) : Entries :=
  bindings.map fun binding => (.sym binding.1, binding.2.quoted)

theorem Store.bindAll_unlogged {store store' : Store} (alike : store.unlogged = store'.unlogged)
    (scope : Nat) (bindings : List (Symbol × Value)) :
    (store.bindAll scope bindings).unlogged = (store'.bindAll scope bindings).unlogged := by
  have carried : ∀ binding ∈ bindings, binding.2.Carries logCoupling.code :=
    fun binding _ => Value.carries_of_all (fun _ => trivial) binding.2
  exact (logCoupling_lawful.keeps_bindings scope carried).level _ _ alike

/-- Quoted bindings are evaluated without fail, and leave their names bound to the values. -/
theorem evaluateBindings_quoted (depth scope : Nat) (bindings : List (Symbol × Value))
    (store : Store) :
    (evaluateBindings (evaluate (depth + 1)) scope (quotedBindings bindings)).outcome store = .ok ⟨⟩ ∧
      ((evaluateBindings (evaluate (depth + 1)) scope (quotedBindings bindings)).after
        store).unlogged = (store.bindAll scope bindings).unlogged := by
  induction bindings generalizing store with
  | nil => exact ⟨rfl, rfl⟩
  | cons binding bindings ih =>
    obtain ⟨name, value⟩ := binding
    have stepwise : evaluateBindings (evaluate (depth + 1)) scope
          (quotedBindings ((name, value) :: bindings)) =
        EvalM.record (.specialForm .quote) >>= fun _ =>
          EvalM.bindName scope name value >>= fun _ =>
            evaluateBindings (evaluate (depth + 1)) scope (quotedBindings bindings) :=
      evaluateBindings_cons scope (.sym name) value.quoted (quotedBindings bindings)
    obtain ⟨ends, leaves⟩ := ih ((store.record (.specialForm .quote)).bind scope name value)
    rw [stepwise]
    refine ⟨ends, leaves.trans ?_⟩
    -- The note about the quotation is all that a binding at once would not leave.
    have noted : ((store.record (.specialForm .quote)).bind scope name value).unlogged =
        (store.bind scope name value).unlogged := rfl
    exact Store.bindAll_unlogged noted scope bindings

/-! ### A call as a local scope -/

/-- Two computations that end alike from a state and leave the same one but for the log. -/
def EvalM.Agree (first second : EvalM α) (store : Store) : Prop :=
  first.outcome store = second.outcome store ∧
    (first.after store).unlogged = (second.after store).unlogged

namespace Params

/-- The local scope that stands for a call. -/
def localScope (params : Params) (arguments : List Value) (body : Value) : Value :=
  .list [.sym ⟨SpecialForm.letIn.name⟩,
    .list (quotedBindings (params.bindings arguments)).flat, body]

end Params

/-- A local scope with quoted bindings is entered, filled and left to its body. -/
theorem evaluate_localScope (depth scope : Nat) (params : Params) (arguments : List Value)
    (body : Value) :
    evaluate (depth + 2) scope (params.localScope arguments body) =
      EvalM.record (.specialForm .letIn) >>= fun _ =>
        EvalM.enter scope ⟨[], none⟩ [] >>= fun inner =>
          evaluateBindings (evaluate (depth + 1)) inner
              (quotedBindings (params.bindings arguments)) >>= fun _ =>
            evaluate (depth + 1) inner body := by
  have unfolded : evaluate (depth + 2) scope (params.localScope arguments body) =
      EvalM.record (.specialForm .letIn) >>= fun _ =>
        evaluateLocalScope (evaluate (depth + 1)) scope
          (.list (quotedBindings (params.bindings arguments)).flat) (some body) := rfl
  rw [unfolded]
  simp only [evaluateLocalScope, Value.bracketed?, Entries.pairUp?_flat]

section
variable {params : Params} {arguments : List Value}

/-- A call whose arguments fit enters the scope of the closure and evaluates the body. -/
theorem apply_closure (eval : Evaluator) (serial : Nat) (body : Value) (scope : Nat)
    (admits : params.arity.Admits arguments.length) :
    apply eval (.closure serial params body scope) arguments =
      EvalM.record (.closure arguments.length) >>= fun _ =>
        EvalM.enter scope params arguments >>= fun inner => eval inner body := by
  simp only [apply, Params.violated?_of_admits admits]

/-- A call and the local scope that stands for it end alike and leave the same state but for the log.
The local scope takes one level more, for its bindings and body are forms inside it. -/
theorem apply_agree_localScope (serial : Nat) (body : Value) (scope : Nat)
    (admits : params.arity.Admits arguments.length) (depth : Nat) (store : Store) :
    (apply (evaluate (depth + 1)) (.closure serial params body scope) arguments).Agree
      (evaluate (depth + 2) scope (params.localScope arguments body)) store := by
  let inner := store.scopes.size
  let entered := (store.record (.specialForm .letIn)).addScope (.inside scope)
  let called := (store.record (.closure arguments.length)).enter scope params arguments
  let bindings := params.bindings arguments
  let fill := evaluateBindings (evaluate (depth + 1)) inner (quotedBindings bindings)
  obtain ⟨filled, leaves⟩ := evaluateBindings_quoted depth inner bindings entered
  -- Both scopes are filled with the same bindings, in states that differ in their logs.
  have alike : called.unlogged = (fill.after entered).unlogged := by
    refine Eq.trans ?_ leaves.symm
    have empty : ((store.record (.closure arguments.length)).addScope (.inside scope)).unlogged =
        entered.unlogged := rfl
    have bound := Store.bindAll_unlogged empty inner bindings
    rwa [show called = _ from Store.enter_eq_bindAll _ scope params arguments]
  obtain ⟨ends, rest⟩ := EvalM.outcome_bind_of_ok (fun _ => evaluate (depth + 1) inner body) filled
  obtain ⟨same, leaves'⟩ := evaluate_unlogged alike (depth + 1) inner body
  rw [evaluate_localScope, apply_closure (evaluate (depth + 1)) serial body scope admits]
  constructor
  · exact (ends.trans same).symm
  · exact leaves'.trans (congrArg Store.unlogged rest).symm

theorem apply_misfit (eval : Evaluator) (serial : Nat) (body : Value) (scope : Nat)
    (misfit : params.Misfit arguments.length) :
    apply eval (.closure serial params body scope) arguments =
      EvalM.fail (.arity .closure params.arity arguments.length) := by
  simp only [apply, Params.violated?_of_not_admits (Params.not_admits_arity_iff.2 misfit)]

end

/-- The call of a closure fails because of the number of its arguments if and only if there are fewer
than fixed parameters, or more and no rest parameter; then it does nothing else. Any other call ends like
the local scope, in the scope of the closure, that binds each fixed parameter to its argument and then
the rest parameter to the list of the further ones, all quoted, and has the body of the closure for its
body. They leave the same scopes, output and numbers. Within the allowed depth the local scope takes one
level more than the call; if neither is used up, the depths do not matter. -/
theorem calls_are_local_scopes (serial : Nat) (params : Params) (body : Value) (scope : Nat)
    (arguments : List Value) (store : Store) :
    (∀ depth, (apply (evaluate depth) (.closure serial params body scope) arguments).outcome store =
        .error (.error (.arity .closure params.arity arguments.length)) ↔
      params.Misfit arguments.length) ∧
    (params.Misfit arguments.length → ∀ depth,
      (apply (evaluate depth) (.closure serial params body scope) arguments).after store = store) ∧
    (¬ params.Misfit arguments.length →
      (∀ depth, (apply (evaluate (depth + 1)) (.closure serial params body scope) arguments).Agree
        (evaluate (depth + 2) scope (params.localScope arguments body)) store) ∧
      ∀ depth depth',
        (apply (evaluate depth) (.closure serial params body scope) arguments).outcome store ≠
            .error .exhausted →
          (evaluate depth' scope (params.localScope arguments body)).outcome store ≠
              .error .exhausted →
            (apply (evaluate depth) (.closure serial params body scope) arguments).Agree
              (evaluate depth' scope (params.localScope arguments body)) store) := by
  refine ⟨fun depth => ⟨fun failed => ?_, fun misfit => ?_⟩, fun misfit depth => ?_, fun fits => ?_⟩
  · -- An error from within the body would blame a number of arguments that is allowed.
    exact Params.not_admits_arity_iff.1 (apply_truthful failed)
  · rw [apply_misfit _ serial body scope misfit]
    rfl
  · rw [apply_misfit _ serial body scope misfit]
    rfl
  have admits : params.arity.Admits arguments.length :=
    Classical.byContradiction fun other => fits (Params.not_admits_arity_iff.1 other)
  refine ⟨fun depth => apply_agree_localScope serial body scope admits depth store, ?_⟩
  intro depth depth' ends ends'
  have same := apply_agree_localScope serial body scope admits (depth + depth') store
  obtain ⟨deeper, leaves⟩ := apply_deeper ends (depth' + 1)
  obtain ⟨deeper', leaves'⟩ := evaluate_deeper ends' (depth + 2)
  rw [← Nat.add_assoc] at deeper leaves
  rw [show depth' + (depth + 2) = depth + depth' + 2 by omega] at deeper' leaves'
  unfold EvalM.Agree at same ⊢
  rwa [deeper, deeper', leaves, leaves'] at same

/-- One name for both fixed parameters and the rest parameter, and a definition in the body. -/
theorem calls_are_local_scopes_repeated :
    (apply (evaluate 3) (.closure 7 ⟨[⟨"a"⟩, ⟨"a"⟩], some ⟨"a"⟩⟩ (.list [.sym ⟨"def!"⟩, .sym ⟨"b"⟩,
        .sym ⟨"a"⟩]) 0) [.num 1]).outcome Store.initial =
      .error (.error (.arity .closure (.atLeast 2) 1)) ∧
    (evaluate 4 0 (.list [.sym ⟨"let*"⟩, .list [.sym ⟨"a"⟩, .list [.sym ⟨"quote"⟩, .num 1],
        .sym ⟨"a"⟩, .list [.sym ⟨"quote"⟩, .num 2], .sym ⟨"a"⟩,
        .list [.sym ⟨"quote"⟩, .list [.num 3]]],
        .list [.sym ⟨"def!"⟩, .sym ⟨"b"⟩, .sym ⟨"a"⟩]])).outcome Store.initial =
      .ok (.list [.num 3]) := by
  obtain ⟨few, -, -⟩ := calls_are_local_scopes 7 ⟨[⟨"a"⟩, ⟨"a"⟩], some ⟨"a"⟩⟩
    (.list [.sym ⟨"def!"⟩, .sym ⟨"b"⟩, .sym ⟨"a"⟩]) 0 [.num 1] Store.initial
  obtain ⟨-, -, fit⟩ := calls_are_local_scopes 7 ⟨[⟨"a"⟩, ⟨"a"⟩], some ⟨"a"⟩⟩
    (.list [.sym ⟨"def!"⟩, .sym ⟨"b"⟩, .sym ⟨"a"⟩]) 0 [.num 1, .num 2, .num 3] Store.initial
  obtain ⟨same, -⟩ := (fit (by simp [Params.Misfit])).1 2
  refine ⟨(few 3).2 (.inl (by decide)), same.symm.trans ?_⟩
  cbv

end MiniLisp
