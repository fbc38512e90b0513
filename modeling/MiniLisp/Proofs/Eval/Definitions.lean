import MiniLisp.Proofs.Eval.Frames
import MiniLisp.Proofs.Eval.Visits

/-! What evaluation makes of a scope. A definition binds its name once its form has a value, and it is
completed then, whatever goes wrong later. An evaluation changes a scope that was there before by the
definitions in it that it completes, in the order of completion, and by nothing else: the bindings of
a local scope and the arguments of a call go into scopes that are new.

The evaluator is compared with a list of evaluations here, which is no computation, so each function of the
evaluator is set beside the list for it. What changes no scope is taken from the courses of computations. -/

namespace MiniLisp

/-- A completed definition: the scope in which it stands, its name, and the value of its form. -/
structure Definition where
  scope : Nat
  name : Symbol
  value : Value
deriving DecidableEq

/-- What an evaluation defines by itself: a name, if it is one of a definition whose form has a
value. -/
def Visit.defines (eval : Evaluator) (visit : Visit) : List Definition :=
  match visit.form with
  | .list [head, name, form] =>
    match SpecialForm.ofHead? head, nameIn .define name with
    | some .define, .ok name =>
      (eval visit.scope form).whenDone (visit.store.record (.specialForm .define)) fun value _ =>
        [⟨visit.scope, name, value⟩]
    | _, _ => []
  | _ => []

/-- The definitions that an evaluation completes, in the order of completion: first those of the
evaluations that it is made of, and then its own. -/
def completed : Nat → Visit → List Definition
  | 0, _ => []
  | depth + 1, visit =>
    (visits (evaluate depth) visit).flatMap (completed depth) ++ visit.defines (evaluate depth)

/-- A scope after definitions: those that stand in it bind their names, one after the other. -/
def Scope.commit (frame : Scope) (place : Nat) (definitions : List Definition) : Scope :=
  (definitions.filter fun definition => definition.scope = place).foldl
    (fun frame definition => frame.bind definition.name definition.value) frame

theorem Scope.commit_append (frame : Scope) (place : Nat) (first second : List Definition) :
    frame.commit place (first ++ second) = (frame.commit place first).commit place second := by
  rw [commit, List.filter_append, List.foldl_append]
  rfl

/-! ### Computations that commit definitions -/

namespace EvalM

/-- A computation that changes one scope by some definitions and nothing else. -/
def Commits (place : Nat) (computation : EvalM α) (store : Store)
    (definitions : List Definition) : Prop :=
  ∀ frame : Scope, store.scopes[place]? = some frame →
    (computation.after store).scopes[place]? = some (frame.commit place definitions)

variable {α β : Type} {place : Nat} {store : Store}

theorem commits_of_spares {computation : EvalM α} (spares : computation.Spares none) :
    computation.Commits place store [] := by
  intro frame held
  exact (spares store trivial).leads.apart place frame held nofun

theorem commits_bind {computation : EvalM α} {next : α → EvalM β} {begun : List Definition}
    {others : α → Store → List Definition} (first : computation.Commits place store begun)
    (rest : ∀ value middle, (next value).Commits place middle (others value middle)) :
    (computation >>= next).Commits place store (begun ++ computation.whenDone store others) := by
  intro frame held
  have half := first frame held
  rw [after_bind, Scope.commit_append]
  unfold after at half
  unfold whenDone
  cases ran : computation.run.run store with
  | mk outcome middle =>
    rw [ran] at half
    cases outcome with
    | ok value => exact rest value middle _ half
    | error halt => exact half

/-- A computation that is followed by steps which change no scope. -/
theorem commits_bind_spares {computation : EvalM α} {next : α → EvalM β}
    {definitions : List Definition} (first : computation.Commits place store definitions)
    (rest : ∀ value, (next value).Spares none) :
    (computation >>= next).Commits place store definitions := by
  have both := commits_bind first fun value _ => commits_of_spares (rest value)
  rwa [whenDone_nil, List.append_nil] at both

theorem commits_pure (value : α) : (pure value : EvalM α).Commits place store [] :=
  commits_of_spares (keeps_pure (growing_lasting none) trivial)

theorem commits_fail (error : EvalError) : (fail error : EvalM α).Commits place store [] :=
  commits_of_spares (keeps_halt (growing_lasting none) trivial)

/-- A note in the log goes before a computation. -/
theorem commits_record {event : Event} {next : EvalM α} {definitions : List Definition}
    (rest : next.Commits place (store.record event) definitions) :
    (record event >>= fun _ => next).Commits place store definitions := rest

/-- What is done in a scope of its own is done to the other ones as well. -/
theorem commits_enter {next : Nat → EvalM α} {outer : Nat} {params : Params}
    {arguments : List Value} {definitions : List Definition}
    (inside : place ≠ store.scopes.size → (next store.scopes.size).Commits place
      (store.enter outer params arguments) definitions) :
    (enter outer params arguments >>= next).Commits place store definitions := by
  intro frame held
  have old : place < store.scopes.size := (Array.getElem?_eq_some_iff.1 held).1
  have apart : place ≠ store.scopes.size := by omega
  have entered := store.enter_grows outer params arguments
  refine inside apart frame (entered.apart place frame held ?_)
  intro same
  exact apart (Option.some.inj same).symm

/-- A binding in another scope changes nothing. -/
theorem commits_bindName_apart {scope : Nat} (apart : place ≠ scope) (name : Symbol)
    (value : Value) : (bindName scope name value).Commits place store [] := by
  intro frame held
  refine (Grows.bind store.scopes scope name value).apart place frame held ?_
  intro same
  exact apart (Option.some.inj same).symm

/-- A binding in another scope goes before a computation. -/
theorem commits_after_bindName {scope : Nat} {name : Symbol} {value : Value} {next : EvalM α}
    {definitions : List Definition} (apart : place ≠ scope)
    (rest : next.Commits place (store.bind scope name value) definitions) :
    (bindName scope name value >>= fun _ => next).Commits place store definitions := by
  intro frame held
  exact rest frame (commits_bindName_apart apart name value frame held)

/-- A binding by a definition is the definition. -/
theorem commits_bindName (scope : Nat) (name : Symbol) (value : Value) :
    (bindName scope name value).Commits place store [⟨scope, name, value⟩] := by
  by_cases same : scope = place
  · subst same
    intro frame held
    change (store.scopes.modify scope _)[scope]? = _
    rw [Array.getElem?_modify, if_pos rfl, held]
    simp [Scope.commit]
  · intro frame held
    rw [commits_bindName_apart (Ne.symm same) name value frame held]
    simp [Scope.commit, same]

end EvalM

/-! ### The evaluator -/

section
variable {eval : Evaluator} {within : Visit → List Definition} {place : Nat}
  (commits : ∀ scope form store,
    (eval scope form).Commits place store (within ⟨scope, form, store⟩))
include commits

theorem mapM_commits (scope : Nat) (forms : List Value) (store : Store) :
    (forms.mapM (eval scope)).Commits place store
      ((visitsInTurn eval scope forms store).flatMap within) := by
  induction forms generalizing store with
  | nil => exact EvalM.commits_pure []
  | cons form forms ih =>
    rw [List.mapM_cons, visitsInTurn, List.flatMap_cons, EvalM.whenDone_flatMap]
    refine EvalM.commits_bind (commits scope form store) fun value middle => ?_
    refine EvalM.commits_bind_spares (ih middle) fun values => ?_
    exact EvalM.keeps_pure (growing_lasting none) trivial

theorem foldlM_commits (scope : Nat) (forms : List Value) (start : Value) (store : Store) :
    (forms.foldlM (fun _ form => eval scope form) start).Commits place store
      ((visitsInTurn eval scope forms store).flatMap within) := by
  induction forms generalizing start store with
  | nil => exact EvalM.commits_pure start
  | cons form forms ih =>
    rw [List.foldlM_cons, visitsInTurn, List.flatMap_cons, EvalM.whenDone_flatMap]
    exact EvalM.commits_bind (commits scope form store) fun value middle => ih value middle

theorem evaluateEntries_commits (scope : Nat) (entries : Entries) (store : Store) :
    (evaluateEntries eval scope entries).Commits place store
      ((visitsInTurn eval scope (Entries.flat entries) store).flatMap within) := by
  unfold evaluateEntries
  generalize ([] : Entries) = built
  induction entries generalizing built store with
  | nil => exact EvalM.commits_pure built
  | cons entry entries ih =>
    have flat : Entries.flat (entry :: entries) = entry.1 :: entry.2 :: Entries.flat entries := rfl
    simp only [flat, visitsInTurn, List.flatMap_cons, EvalM.whenDone_flatMap, List.foldlM_cons,
      bind_assoc, pure_bind]
    refine EvalM.commits_bind (commits scope entry.1 store) fun key middle => ?_
    refine EvalM.commits_bind (commits scope entry.2 middle) fun value last => ?_
    exact ih last (Entries.insert built key value)

omit commits in
theorem evaluateBindings_cons (scope : Nat) (name form : Value) (bindings : Entries) :
    evaluateBindings eval scope ((name, form) :: bindings) =
      match nameIn .letIn name with
      | .error error => EvalM.fail error
      | .ok name => eval scope form >>= fun value => EvalM.bindName scope name value >>= fun _ =>
        evaluateBindings eval scope bindings := by
  have first : evaluateBindings eval scope ((name, form) :: bindings) =
      ((EvalM.ofExcept (nameIn .letIn name) >>= fun name => eval scope form >>= fun value =>
        EvalM.bindName scope name value) >>= fun _ => evaluateBindings eval scope bindings) := rfl
  rw [first]
  cases nameIn .letIn name with
  | error error => rfl
  | ok name => simp only [EvalM.ofExcept, pure_bind, bind_assoc]

theorem evaluateBindings_commits {scope : Nat} (apart : place ≠ scope) (bindings : Entries)
    (store : Store) : (evaluateBindings eval scope bindings).Commits place store
      ((visitsOfBindings eval scope bindings store).flatMap within) := by
  induction bindings generalizing store with
  | nil => exact EvalM.commits_pure _
  | cons binding bindings ih =>
    obtain ⟨name, form⟩ := binding
    rw [evaluateBindings_cons, visitsOfBindings]
    cases nameIn .letIn name with
    | error error => exact EvalM.commits_fail error
    | ok name =>
      rw [List.flatMap_cons, EvalM.whenDone_flatMap]
      refine EvalM.commits_bind (commits scope form store) fun value middle => ?_
      exact EvalM.commits_after_bindName apart (ih _)

theorem evaluateLocalScope_commits (scope : Nat) (bindings : Value) (body : Option Value)
    (store : Store) : (evaluateLocalScope eval scope bindings body).Commits place store
      ((visitsOfLocalScope eval scope bindings body store).flatMap within) := by
  unfold evaluateLocalScope visitsOfLocalScope
  cases bindings.bracketed? with
  | none => exact EvalM.commits_fail _
  | some items =>
    dsimp only [Option.bind_some]
    cases Entries.pairUp? items with
    | none => exact EvalM.commits_fail _
    | some bindings =>
      refine EvalM.commits_enter fun apart => ?_
      rw [List.flatMap_append, EvalM.whenDone_flatMap]
      refine EvalM.commits_bind (evaluateBindings_commits commits apart bindings _) ?_
      intro _ ready
      cases body with
      | none => exact EvalM.commits_pure _
      | some body => simpa using commits _ body ready

theorem evaluateChoice_commits (scope : Nat) (condition consequent : Value)
    (alternate : Option Value) (store : Store) :
    (evaluateChoice eval scope condition consequent alternate).Commits place store
      ((visitsOfChoice eval scope condition consequent alternate store).flatMap within) := by
  unfold evaluateChoice visitsOfChoice
  rw [List.flatMap_cons, EvalM.whenDone_flatMap]
  refine EvalM.commits_bind (commits scope condition store) fun tested after => ?_
  split
  · simpa using commits scope consequent after
  · cases alternate with
    | none => exact EvalM.commits_pure _
    | some alternate => simpa using commits scope alternate after

theorem evaluateDefinition_commits (found : SpecialForm.ofHead? head = some .define) (scope : Nat)
    (operands : List Value) (store : Store) :
    (evaluateDefinition eval scope operands).Commits place (store.record (.specialForm .define))
      ((visitsOfSpecial eval scope .define operands
          (store.record (.specialForm .define))).flatMap within ++
        Visit.defines eval ⟨scope, .list (head :: operands), store⟩) := by
  match operands with
  | [name, form] =>
    simp only [evaluateDefinition, visitsOfSpecial, Visit.defines, found]
    cases nameIn .define name with
    | error error => exact EvalM.commits_fail error
    | ok name =>
      dsimp only
      rw [List.flatMap_singleton]
      refine EvalM.commits_bind (commits scope form _) fun value middle => ?_
      refine EvalM.commits_record (EvalM.commits_bind_spares ?_ fun _ => ?_)
      · exact EvalM.commits_bindName scope name value
      · exact EvalM.keeps_pure (growing_lasting none) trivial
  | [] | [_] | _ :: _ :: _ :: _ => exact EvalM.commits_fail _

theorem apply_commits (function : Value) (arguments : List Value) (store : Store) :
    (apply eval function arguments).Commits place store
      ((visitsOfCall function arguments store).flatMap within) := by
  unfold apply visitsOfCall
  cases function with
  | prim primitive =>
    exact EvalM.commits_of_spares (EvalM.spares_call none primitive arguments)
  | closure serial params body scope =>
    dsimp only
    cases params.violated? arguments.length with
    | some expected => exact EvalM.commits_fail _
    | none =>
      refine EvalM.commits_record (EvalM.commits_enter fun _ => ?_)
      simpa using commits _ body _
  | _ => exact EvalM.commits_fail _

omit commits in
theorem evaluateLambda_spares (scope : Nat) (params : Value) (body : Option Value) :
    (evaluateLambda scope params body).Spares none := by
  have lasting := growing_lasting none
  have read : (EvalM.ofExcept (Params.ofForm params)).Spares none :=
    EvalM.keeps_ofExcept lasting (fun _ _ => trivial) fun _ _ => trivial
  refine EvalM.keeps_bind lasting read fun params _ => ?_
  refine EvalM.keeps_bind lasting (EvalM.spares_takeSerial none) fun serial _ => ?_
  exact EvalM.keeps_pure lasting trivial

theorem evaluateSpecial_commits {form : SpecialForm} (other : form ≠ .define) (scope : Nat)
    (operands : List Value) (store : Store) :
    (evaluateSpecial eval scope form operands).Commits place store
      ((visitsOfSpecial eval scope form operands store).flatMap within) := by
  cases form with
  | define => exact (other rfl).elim
  | letIn =>
    match operands with
    | [bindings] => exact evaluateLocalScope_commits commits scope bindings none store
    | [bindings, body] => exact evaluateLocalScope_commits commits scope bindings (some body) store
    | [] | _ :: _ :: _ :: _ => exact EvalM.commits_fail _
  | sequence => exact foldlM_commits commits scope operands .nil store
  | choice =>
    match operands with
    | [condition, consequent] =>
      exact evaluateChoice_commits commits scope condition consequent none store
    | [condition, consequent, alternate] =>
      exact evaluateChoice_commits commits scope condition consequent (some alternate) store
    | [] | [_] | _ :: _ :: _ :: _ :: _ => exact EvalM.commits_fail _
  | lambda =>
    match operands with
    | [params] => exact EvalM.commits_of_spares (evaluateLambda_spares scope params none)
    | [params, body] => exact EvalM.commits_of_spares (evaluateLambda_spares scope params (some body))
    | [] | _ :: _ :: _ :: _ => exact EvalM.commits_fail _
  | quote =>
    match operands with
    | [form] => exact EvalM.commits_pure form
    | [] | _ :: _ :: _ => exact EvalM.commits_fail _

omit commits in
theorem Visit.defines_of_other (other : SpecialForm.ofHead? head ≠ some .define) (scope : Nat)
    (operands : List Value) (store : Store) :
    Visit.defines eval ⟨scope, .list (head :: operands), store⟩ = [] := by
  unfold Visit.defines
  split
  · next same =>
    cases same
    split
    · next found _ => exact (other found).elim
    · rfl
  · rfl

theorem evaluateList_commits (scope : Nat) (head : Value) (operands : List Value) (store : Store) :
    (evaluateList eval scope head operands).Commits place store
      ((visits eval ⟨scope, .list (head :: operands), store⟩).flatMap within ++
        Visit.defines eval ⟨scope, .list (head :: operands), store⟩) := by
  cases found : SpecialForm.ofHead? head with
  | some form =>
    simp only [evaluateList, visits, found]
    refine EvalM.commits_record ?_
    by_cases define : form = .define
    · subst define
      exact evaluateDefinition_commits commits found scope operands store
    · have own := @Visit.defines_of_other eval head (by simpa [found] using define)
      rw [own, List.append_nil]
      exact evaluateSpecial_commits commits define scope operands _
  | none =>
    have own := @Visit.defines_of_other eval head (by simp [found])
    simp only [evaluateList, visits, found, own, List.append_nil, List.flatMap_cons,
      List.flatMap_append, EvalM.whenDone_flatMap]
    refine EvalM.commits_bind (commits scope head store) fun function middle => ?_
    refine EvalM.commits_bind (mapM_commits commits scope operands middle) fun arguments last => ?_
    exact apply_commits commits function arguments last

theorem evaluateStep_commits (scope : Nat) (form : Value) (store : Store) :
    (evaluateStep eval scope form).Commits place store
      ((visits eval ⟨scope, form, store⟩).flatMap within ++
        Visit.defines eval ⟨scope, form, store⟩) := by
  have lasting := growing_lasting none
  match form with
  | .list (head :: operands) => exact evaluateList_commits commits scope head operands store
  | .vec items =>
    refine EvalM.commits_bind_spares ?_ fun _ => EvalM.keeps_pure lasting trivial
    simpa [visits, Visit.defines] using mapM_commits commits scope items store
  | .map origin entries =>
    refine EvalM.commits_bind_spares ?_ fun built => ?_
    · simpa [visits, Visit.defines] using evaluateEntries_commits commits scope entries store
    · refine EvalM.keeps_bind lasting (EvalM.spares_takeSerial none) fun serial _ => ?_
      exact EvalM.keeps_pure lasting trivial
  | .sym symbol =>
    simp only [evaluateStep]
    split
    · exact EvalM.commits_pure _
    · exact EvalM.commits_of_spares (EvalM.spares_lookup none scope symbol)
  | .list [] | .nil | .bool _ | .num _ | .str _ | .pair _ _ | .prim _ | .closure _ _ _ _ =>
    exact EvalM.commits_pure _

end

/-- An evaluation changes every scope that was there before by the definitions in it that it
completes, and by nothing else. -/
theorem evaluate_commits (place depth scope : Nat) (form : Value) (store : Store) :
    (evaluate depth scope form).Commits place store (completed depth ⟨scope, form, store⟩) := by
  induction depth generalizing scope form store with
  | zero => exact EvalM.commits_of_spares (EvalM.keeps_halt (growing_lasting none) trivial)
  | succ depth ih => exact evaluateStep_commits ih scope form store

-- A definition in the body of a local scope stands in that scope.
example :
    completed 3 ⟨0, .list [.sym ⟨"let*"⟩, .list [.sym ⟨"x"⟩, .num 1],
      .list [.sym ⟨"def!"⟩, .sym ⟨"y"⟩, .sym ⟨"x"⟩]], Store.initial⟩ = [⟨1, ⟨"y"⟩, .num 1⟩] := by
  cbv

end MiniLisp
