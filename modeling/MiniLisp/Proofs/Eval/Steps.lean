import MiniLisp.Eval.Evaluate
import MiniLisp.Proofs.Eval.Closures

/-! What a computation ends with and what it leaves in the store, for the steps that evaluation is made
of. -/

namespace MiniLisp

/-! ### The state in which a call begins -/

/-- A state in whose scope names are bound one after the other. -/
def Store.bindAll (store : Store) (scope : Nat) (bindings : List (Symbol × Value)) : Store :=
  bindings.foldl (fun store binding => store.bind scope binding.1 binding.2) store

/-- What a call binds: the fixed parameters to arguments, and then the rest parameter to the list of
all further ones. -/
def Params.bindings (params : Params) (arguments : List Value) : List (Symbol × Value) :=
  params.fixed.zip arguments ++
    params.rest.toList.map fun name => (name, .list (arguments.drop params.fixed.length))

theorem Store.enter_eq_bindAll (store : Store) (outer : Nat) (params : Params)
    (arguments : List Value) : store.enter outer params arguments =
      (store.addScope (.inside outer)).bindAll store.scopes.size (params.bindings arguments) := by
  unfold Store.enter Store.bindAll Params.bindings
  rw [List.foldl_append]
  cases params.rest <;> rfl

/-- A call binds values of the kind of its arguments. -/
theorem Value.Hereditary.bindings {data : Value → Prop} (hereditary : Hereditary data)
    (params : Params) {arguments : List Value} (each : ∀ argument ∈ arguments, data argument) :
    ∀ binding ∈ params.bindings arguments, data binding.2 := by
  rw [Params.bindings, List.forall_mem_append, List.forall_mem_map]
  refine ⟨fun binding member => each _ (List.of_mem_zip member).2, fun name _ => ?_⟩
  exact hereditary.list.2 fun argument member => each argument (List.mem_of_mem_drop member)

/-- What holds of a state with a new scope, and is kept by every binding that a call makes in this scope,
holds of the state in which the call begins. -/
theorem Store.enter_induction {motive : Store → Prop} {store : Store}
    (begun : motive (store.addScope (.inside outer)))
    (bound : ∀ begun, motive begun → ∀ binding ∈ params.bindings arguments,
      motive (begun.bind store.scopes.size binding.1 binding.2)) :
    motive (store.enter outer params arguments) := by
  rw [enter_eq_bindAll]
  exact List.foldlRecOn _ _ begun bound

/-! ### Ends and stores -/

namespace EvalM

variable {α β : Type}

/-- The store that a computation leaves, whatever it ends with. -/
def after (computation : EvalM α) (store : Store) : Store := (computation.run.run store).2

/-- How a computation ends. -/
def outcome (computation : EvalM α) (store : Store) : Except Halt α :=
  (computation.run.run store).1

theorem run_bind (computation : EvalM α) (next : α → EvalM β) (store : Store) :
    (computation >>= next).run.run store =
      match computation.run.run store with
      | (.ok value, middle) => (next value).run.run middle
      | (.error halt, middle) => (.error halt, middle) := by
  rw [ExceptT.run_bind, StateT.run_bind]
  change (match computation.run.run store with | (outcome, middle) => _) = _
  cases computation.run.run store with
  | mk outcome middle => cases outcome <;> rfl

theorem after_bind (computation : EvalM α) (next : α → EvalM β) (store : Store) :
    (computation >>= next).after store =
      match computation.run.run store with
      | (.ok value, middle) => (next value).after middle
      | (.error _, middle) => middle := by
  rw [after, run_bind]
  cases computation.run.run store with
  | mk outcome middle => cases outcome <;> rfl

theorem outcome_bind_of_ok {computation : EvalM α} (next : α → EvalM β)
    (ended : computation.outcome store = .ok value) :
    (computation >>= next).outcome store = (next value).outcome (computation.after store) ∧
      (computation >>= next).after store = (next value).after (computation.after store) := by
  have ran : computation.run.run store = (.ok value, computation.after store) := Prod.ext ended rfl
  refine ⟨?_, ?_⟩
  · rw [outcome, run_bind, ran]
    rfl
  · rw [after_bind, ran]

theorem outcome_bind_of_error {computation : EvalM α} (next : α → EvalM β)
    (ended : computation.outcome store = .error halt) :
    (computation >>= next).outcome store = .error halt ∧
      (computation >>= next).after store = computation.after store := by
  have ran : computation.run.run store = (.error halt, computation.after store) :=
    Prod.ext ended rfl
  refine ⟨?_, ?_⟩
  · rw [outcome, run_bind, ran]
  · rw [after_bind, ran]

theorem outcome_lookup (scope : Nat) (name : Symbol) (store : Store) :
    (lookup scope name).outcome store =
      match store.scopes.lookup scope name with
      | some value => .ok value
      | none => .error (.error (.unbound name)) := by
  change ((match store.scopes.lookup scope name with
    | some value => pure value
    | none => fail (.unbound name)) : EvalM Value).outcome store = _
  cases store.scopes.lookup scope name <;> rfl

theorem after_lookup (scope : Nat) (name : Symbol) (store : Store) :
    (lookup scope name).after store = store := by
  change ((match store.scopes.lookup scope name with
    | some value => pure value
    | none => fail (.unbound name)) : EvalM Value).after store = _
  cases store.scopes.lookup scope name <;> rfl

theorem run_write_of_working (works : store.device = .working) (text : String) :
    (write text).run.run store = (.ok (), { store with output := store.output.push text }) := by
  obtain ⟨scopes, serial, output, log, device⟩ := store
  cases works
  rfl

theorem run_write_of_failing (fails : store.device = .failing reason) (text : String) :
    (write text).run.run store = (.error (.error (.output reason)), store) := by
  obtain ⟨scopes, serial, output, log, device⟩ := store
  cases fails
  rfl

end EvalM

end MiniLisp
