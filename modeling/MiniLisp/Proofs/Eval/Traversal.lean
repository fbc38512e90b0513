import MiniLisp.Proofs.Eval.Arities
import MiniLisp.Proofs.Eval.Closures

/-! One way through the evaluator, for all that is followed from step to step: what a computation does to
the store, how it ends, or how two of them compare. What is followed is a relation between two
computations, with what is known of the values that they end with; a property of one computation is a
relation that looks at the first only. `Traversal.Lawful` asks what the relation must do at each step that
evaluation is made of. Then it holds of every function of the evaluator as soon as it holds of the
evaluations inside. The cases of the evaluator are gone through here, and need not be known to those who
follow something through it. -/

namespace MiniLisp

open Value

/-- Whether a primitive is about to run. -/
def Event.isCall : Event → Bool
  | primitive _ _ => true
  | _ => false

/-- A primitive ends with its result, perhaps after it has written its arguments. -/
theorem Primitive.run_cases {motive : EvalM Value → Prop} {primitive : Primitive}
    (silent : motive (EvalM.ofExcept (primitive.result arguments)))
    (writes : motive (EvalM.write (printLine arguments) >>= fun _ =>
      EvalM.ofExcept (primitive.result arguments))) : motive (primitive.run arguments) := by
  unfold Primitive.run
  dsimp only
  split
  · exact writes
  · exact silent

/-- What evaluation gets to, under circumstances that may change with the scope. -/
structure Reach (κ : Type) where
  /-- The scope in which forms are evaluated. -/
  scope : κ → Nat
  /-- The circumstances in a scope that a form or a call makes for itself. -/
  inside : κ → Nat → κ
  /-- The forms that are evaluated. -/
  whole : κ → Value → Prop
  /-- The forms that are evaluated on the way. -/
  inner : κ → Value → Prop
  /-- The special forms that may come up. -/
  allows : κ → SpecialForm → Prop
  /-- The values that are passed around. -/
  data : Value → Prop

/-- What is asked of forms and values: evaluation goes to the parts of forms and to the bodies of closures,
and the values that it passes around come of these forms. -/
structure Reach.Closed {κ : Type} (reach : Reach κ) : Prop where
  scope_inside : ∀ {ctx new}, reach.scope (reach.inside ctx new) = new
  hereditary : Hereditary reach.data
  child : ∀ {ctx form item}, reach.whole ctx form → item ∈ children form → reach.inner ctx item
  part : ∀ {ctx form item}, reach.inner ctx form → item ∈ children form → reach.inner ctx item
  enclosed : ∀ {ctx form new}, reach.inner ctx form → reach.inner (reach.inside ctx new) form
  itself : ∀ {ctx form}, reach.whole ctx form → reach.data form
  quoted : ∀ {ctx form}, reach.inner ctx form → reach.data form
  head : ∀ {ctx head operands form}, reach.whole ctx (.list (head :: operands)) →
    SpecialForm.ofHead? head = some form → reach.allows ctx form
  define_inside : ∀ {ctx new}, reach.allows (reach.inside ctx new) .define
  makes : ∀ {ctx serial params body}, reach.allows ctx .lambda →
    (∀ form, body = some form → reach.inner ctx form) →
      reach.data (.closure serial params (body.getD .nil) (reach.scope ctx))
  body : ∀ {ctx serial params body scope new}, reach.data (.closure serial params body scope) →
    reach.inner (reach.inside ctx new) body

/-- What is followed through the evaluator. -/
structure Traversal (κ : Type) extends Reach κ where
  /-- How two computations compare that end with values of a kind. -/
  related : ∀ {α : Type}, κ → (α → Prop) → EvalM α → EvalM α → Prop

namespace Traversal

variable {κ : Type}

/-- What is asked of the relation at each step. The note about a primitive belongs to the call of the
primitive, which is one step. All that is known of an error is that it is right about what it blames. -/
structure Follows (t : Traversal κ) : Prop where
  pure : ∀ {ctx} {α : Type} {good : α → Prop} {value}, good value →
    t.related ctx good (pure value) (pure value)
  fail : ∀ {ctx} {α : Type} {good : α → Prop} {error : EvalError}, error.Truthful →
    t.related ctx good (EvalM.fail error) (EvalM.fail error)
  bind : ∀ {ctx} {α β : Type} {good : α → Prop} {good' : β → Prop} {first second : EvalM α}
    {next next' : α → EvalM β}, t.related ctx good first second →
      (∀ value, good value → t.related ctx good' (next value) (next' value)) →
        t.related ctx good' (first >>= next) (second >>= next')
  record : ∀ {ctx} {event : Event}, event.isCall = false →
    t.related ctx (fun _ => True) (EvalM.record event) (EvalM.record event)
  bindName : ∀ {ctx name value}, t.allows ctx .define → t.data value →
    t.related ctx (fun _ => True) (EvalM.bindName (t.scope ctx) name value)
      (EvalM.bindName (t.scope ctx) name value)
  takeSerial : ∀ {ctx}, t.related ctx (fun _ => True) EvalM.takeSerial EvalM.takeSerial
  lookup : ∀ {ctx name}, t.whole ctx (.sym name) →
    t.related ctx t.data (EvalM.lookup (t.scope ctx) name) (EvalM.lookup (t.scope ctx) name)
  call : ∀ {ctx} {primitive : Primitive} {arguments}, (∀ argument ∈ arguments, t.data argument) →
    t.related ctx t.data
      (EvalM.record (.primitive primitive arguments.length) >>= fun _ => primitive.run arguments)
      (EvalM.record (.primitive primitive arguments.length) >>= fun _ => primitive.run arguments)
  /-- What is done in a local scope, seen from the scope around it. -/
  enter : ∀ {ctx} {next next' : Nat → EvalM Value},
    (∀ new, t.related (t.inside ctx new) t.data (next new) (next' new)) →
      t.related ctx t.data (EvalM.enter (t.scope ctx) ⟨[], none⟩ [] >>= next)
        (EvalM.enter (t.scope ctx) ⟨[], none⟩ [] >>= next')
  /-- What is done in the scope of a call, seen from where the call stands. -/
  enterCall : ∀ {ctx serial params body scope arguments} {next next' : Nat → EvalM Value},
    t.data (.closure serial params body scope) → (∀ argument ∈ arguments, t.data argument) →
      (∀ new, t.related (t.inside ctx new) t.data (next new) (next' new)) →
        t.related ctx t.data (EvalM.enter scope params arguments >>= next)
          (EvalM.enter scope params arguments >>= next')

/-- What is asked of a traversal. -/
structure Lawful (t : Traversal κ) : Prop extends t.toReach.Closed, Follows t

namespace Follows

section
variable {t : Traversal κ} (follows : t.Follows) {ctx : κ} {α β : Type} {good : α → Prop}
  {good' : β → Prop}
include follows

theorem ofExcept {ended : Except EvalError α} (truthful : Truthful ended)
    (fine : ∀ value, ended = .ok value → good value) :
    t.related ctx good (EvalM.ofExcept ended) (EvalM.ofExcept ended) := by
  cases ended with
  | ok value => exact follows.pure (fine value rfl)
  | error error => exact follows.fail (truthful error rfl)

theorem ofExcept_any {ended : Except EvalError α} (truthful : Truthful ended) :
    t.related ctx (fun _ => True) (EvalM.ofExcept ended) (EvalM.ofExcept ended) :=
  follows.ofExcept truthful fun _ _ => trivial

theorem mapM {f f' : α → EvalM β} {items : List α}
    (each : ∀ item ∈ items, t.related ctx good' (f item) (f' item)) :
    t.related ctx (fun results => ∀ result ∈ results, good' result) (items.mapM f)
      (items.mapM f') := by
  induction items with
  | nil => exact follows.pure (by simp)
  | cons item items ih =>
    rw [List.mapM_cons, List.mapM_cons]
    refine follows.bind (each item List.mem_cons_self) fun result fine => ?_
    have others := ih fun other member => each other (List.mem_cons_of_mem _ member)
    refine follows.bind others fun results fine' => ?_
    exact follows.pure (List.forall_mem_cons.2 ⟨fine, fine'⟩)

theorem foldlM {f f' : β → α → EvalM β} {items : List α} {start : β}
    (each : ∀ item ∈ items, ∀ built, good' built →
      t.related ctx good' (f built item) (f' built item))
    (fine : good' start) : t.related ctx good' (items.foldlM f start) (items.foldlM f' start) := by
  induction items generalizing start with
  | nil => exact follows.pure fine
  | cons item items ih =>
    rw [List.foldlM_cons, List.foldlM_cons]
    refine follows.bind (each item List.mem_cons_self start fine) fun built fine => ?_
    exact ih (fun other member => each other (List.mem_cons_of_mem _ member)) fine

theorem forM {f f' : α → EvalM PUnit} {items : List α}
    (each : ∀ item ∈ items, t.related ctx (fun _ => True) (f item) (f' item)) :
    t.related ctx (fun _ => True) (items.forM f) (items.forM f') := by
  induction items with
  | nil => exact follows.pure trivial
  | cons item items ih =>
    refine follows.bind (each item List.mem_cons_self) fun _ _ => ?_
    exact ih fun other member => each other (List.mem_cons_of_mem _ member)

end

end Follows

/-! ### The evaluator -/

/-- Two evaluators that are related on the forms that are evaluated on the way. -/
def Evaluates (t : Traversal κ) (eval eval' : Evaluator) : Prop :=
  ∀ ctx form, t.inner ctx form →
    t.related ctx t.data (eval (t.scope ctx) form) (eval' (t.scope ctx) form)

section
variable {t : Traversal κ} {eval eval' : Evaluator} (lawful : t.Lawful)
  (evaluates : t.Evaluates eval eval')
include lawful evaluates

theorem Evaluates.inside {ctx : κ} {new : Nat} (code : t.inner (t.inside ctx new) form) :
    t.related (t.inside ctx new) t.data (eval new form) (eval' new form) := by
  have here := evaluates (t.inside ctx new) form code
  rwa [lawful.scope_inside] at here

theorem apply_related (ctx : κ) {function : Value} (held : t.data function)
    (each : ∀ argument ∈ arguments, t.data argument) :
    t.related ctx t.data (apply eval function arguments) (apply eval' function arguments) := by
  unfold apply
  split
  · next primitive => exact lawful.call each
  · next serial params body scope =>
    split
    · next violated => exact lawful.fail (Params.not_admits_of_violated? violated)
    · refine lawful.bind (lawful.record rfl) fun _ _ => ?_
      refine lawful.enterCall held each fun new => ?_
      exact evaluates.inside lawful (lawful.body held)
  · exact lawful.fail trivial

variable {ctx : κ}

theorem evaluateEntries_related {entries : Entries}
    (code : ∀ item ∈ entries.flat, t.inner ctx item) :
    t.related ctx (fun built : Entries => ∀ entry ∈ built, t.data entry.1 ∧ t.data entry.2)
      (evaluateEntries eval (t.scope ctx) entries) (evaluateEntries eval' (t.scope ctx) entries) := by
  refine lawful.foldlM ?_ (by simp)
  intro entry member built fine
  have key := code entry.1 (Entries.mem_flat.2 ⟨entry, member, .inl rfl⟩)
  have value := code entry.2 (Entries.mem_flat.2 ⟨entry, member, .inr rfl⟩)
  refine lawful.bind (evaluates ctx entry.1 key) fun key held => ?_
  refine lawful.bind (evaluates ctx entry.2 value) fun value held' => ?_
  exact lawful.pure (Entries.insert_each fine held held')

theorem evaluateDefinition_related (allowed : t.allows ctx .define)
    (code : ∀ operand ∈ operands, t.inner ctx operand) :
    t.related ctx t.data (evaluateDefinition eval (t.scope ctx) operands)
      (evaluateDefinition eval' (t.scope ctx) operands) := by
  unfold evaluateDefinition
  split
  · next name form =>
    refine lawful.bind (lawful.ofExcept_any (nameIn_truthful .define name)) fun name _ => ?_
    refine lawful.bind (evaluates ctx form (code form (by simp))) fun value held => ?_
    refine lawful.bind (lawful.record rfl) fun _ _ => ?_
    refine lawful.bind (lawful.bindName allowed held) fun _ _ => ?_
    exact lawful.pure held
  · exact lawful.fail trivial

theorem evaluateBindings_related (allowed : t.allows ctx .define) {bindings : Entries}
    (code : ∀ item ∈ bindings.flat, t.inner ctx item) :
    t.related ctx (fun _ => True) (evaluateBindings eval (t.scope ctx) bindings)
      (evaluateBindings eval' (t.scope ctx) bindings) := by
  refine lawful.forM ?_
  intro binding member
  have form := code binding.2 (Entries.mem_flat.2 ⟨binding, member, .inr rfl⟩)
  refine lawful.bind (lawful.ofExcept_any (nameIn_truthful .letIn binding.1)) fun name _ => ?_
  refine lawful.bind (evaluates ctx binding.2 form) fun value held => ?_
  exact lawful.bindName allowed held

theorem evaluateLocalScope_related (code : t.inner ctx bindings)
    (code' : ∀ form, body = some form → t.inner ctx form) :
    t.related ctx t.data (evaluateLocalScope eval (t.scope ctx) bindings body)
      (evaluateLocalScope eval' (t.scope ctx) bindings body) := by
  unfold evaluateLocalScope
  split
  · exact lawful.fail trivial
  next items bracketed =>
  split
  · exact lawful.fail trivial
  next entries paired =>
  have held : ∀ item ∈ entries.flat, t.inner ctx item := by
    rw [← Entries.pairUp?_eq_some_iff.1 paired, ← children_of_bracketed bracketed]
    exact fun item member => lawful.part code member
  refine lawful.enter fun new => ?_
  have enclosed : ∀ item ∈ entries.flat, t.inner (t.inside ctx new) item :=
    fun item member => lawful.enclosed (held item member)
  have bound := evaluateBindings_related lawful evaluates lawful.define_inside enclosed
  rw [lawful.scope_inside] at bound
  refine lawful.bind bound fun _ _ => ?_
  cases body with
  | none => exact lawful.pure lawful.hereditary.nil
  | some form => exact evaluates.inside lawful (lawful.enclosed (code' form rfl))

theorem evaluateChoice_related (condition : t.inner ctx test) (consequent : t.inner ctx yes)
    (alternate : ∀ form, no = some form → t.inner ctx form) :
    t.related ctx t.data (evaluateChoice eval (t.scope ctx) test yes no)
      (evaluateChoice eval' (t.scope ctx) test yes no) := by
  refine lawful.bind (evaluates ctx test condition) fun chosen _ => ?_
  split
  · exact evaluates ctx yes consequent
  · cases no with
    | none => exact lawful.pure lawful.hereditary.nil
    | some form => exact evaluates ctx form (alternate form rfl)

omit evaluates in
theorem evaluateLambda_related (allowed : t.allows ctx .lambda) (params : Value)
    (code : ∀ form, body = some form → t.inner ctx form) :
    t.related ctx t.data (evaluateLambda (t.scope ctx) params body)
      (evaluateLambda (t.scope ctx) params body) := by
  refine lawful.bind (lawful.ofExcept_any (Params.ofForm_truthful params)) fun params _ => ?_
  refine lawful.bind lawful.takeSerial fun serial _ => ?_
  exact lawful.pure (lawful.makes allowed code)

theorem evaluateSpecial_related (allowed : t.allows ctx form)
    (code : ∀ operand ∈ operands, t.inner ctx operand) :
    t.related ctx t.data (evaluateSpecial eval (t.scope ctx) form operands)
      (evaluateSpecial eval' (t.scope ctx) form operands) := by
  cases form with
  | define => exact evaluateDefinition_related lawful evaluates allowed code
  | letIn =>
    simp only [evaluateSpecial]
    split
    · next bindings =>
      exact evaluateLocalScope_related lawful evaluates (code bindings (by simp)) (by simp)
    · next bindings body =>
      refine evaluateLocalScope_related lawful evaluates (code bindings (by simp)) ?_
      rintro _ ⟨⟩
      exact code body (by simp)
    · exact lawful.fail trivial
  | sequence =>
    refine lawful.foldlM ?_ lawful.hereditary.nil
    exact fun operand member _ _ => evaluates ctx operand (code operand member)
  | choice =>
    simp only [evaluateSpecial]
    split
    · next condition consequent =>
      exact evaluateChoice_related lawful evaluates (code condition (by simp))
        (code consequent (by simp)) (by simp)
    · next condition consequent alternate =>
      refine evaluateChoice_related lawful evaluates (code condition (by simp))
        (code consequent (by simp)) ?_
      rintro _ ⟨⟩
      exact code alternate (by simp)
    · exact lawful.fail trivial
  | lambda =>
    simp only [evaluateSpecial]
    split
    · exact evaluateLambda_related lawful allowed _ (by simp)
    · next params body =>
      refine evaluateLambda_related lawful allowed params ?_
      rintro _ ⟨⟩
      exact code body (by simp)
    · exact lawful.fail trivial
  | quote =>
    simp only [evaluateSpecial]
    split
    · next form => exact lawful.pure (lawful.quoted (code form (by simp)))
    · exact lawful.fail trivial

theorem evaluateList_related (code : t.whole ctx (.list (head :: operands))) :
    t.related ctx t.data (evaluateList eval (t.scope ctx) head operands)
      (evaluateList eval' (t.scope ctx) head operands) := by
  have others : ∀ operand ∈ operands, t.inner ctx operand := fun operand member =>
    lawful.child code (List.mem_cons_of_mem _ member)
  unfold evaluateList
  split
  · next form found =>
    refine lawful.bind (lawful.record rfl) fun _ _ => ?_
    exact evaluateSpecial_related lawful evaluates (lawful.head code found) others
  · have first := evaluates ctx head (lawful.child code List.mem_cons_self)
    refine lawful.bind first fun function held => ?_
    have arguments := lawful.mapM fun operand member => evaluates ctx operand (others operand member)
    exact lawful.bind arguments fun _ each => apply_related lawful evaluates ctx held each

/-- What is related inside a form is related on the form. -/
theorem evaluateStep_related (code : t.whole ctx form) :
    t.related ctx t.data (evaluateStep eval (t.scope ctx) form)
      (evaluateStep eval' (t.scope ctx) form) := by
  unfold evaluateStep
  split
  · next symbol =>
    split
    · exact lawful.pure (lawful.itself code)
    · exact lawful.lookup code
  · exact lawful.pure (lawful.itself code)
  · exact evaluateList_related lawful evaluates code
  · next items =>
    have each := lawful.mapM fun item member => evaluates ctx item (lawful.child code member)
    refine lawful.bind each fun values held => ?_
    exact lawful.pure (lawful.hereditary.vec.2 held)
  · next origin entries =>
    have built := evaluateEntries_related lawful evaluates fun item member =>
      lawful.child code member
    refine lawful.bind built fun entries held => ?_
    refine lawful.bind lawful.takeSerial fun serial _ => ?_
    exact lawful.pure (lawful.hereditary.map held)
  all_goals exact lawful.pure (lawful.itself code)

end

/-- What evaluation without any depth does, and every step passes on, evaluation does at every depth. -/
theorem Lawful.evaluate {t : Traversal κ} (lawful : t.Lawful)
    (recurs : ∀ {ctx form}, t.inner ctx form → t.whole ctx form)
    (exhausted : ∀ {ctx}, t.related ctx t.data (throw .exhausted) (throw .exhausted)) (depth : Nat) :
    t.Evaluates (evaluate depth) (evaluate depth) := by
  induction depth with
  | zero => exact fun _ _ _ => exhausted
  | succ depth ih => exact fun _ _ code => evaluateStep_related lawful ih (recurs code)

end Traversal

end MiniLisp
