import MiniLisp.Proofs.Eval.Steps
import MiniLisp.Proofs.Eval.Traversal

/-! The course of one computation: from which stores it starts, what it makes of them, and what it may end
with if not with a value. A course that goes through steps one after the other is kept to by a whole
computation if each of its steps keeps to it, and it does not matter whether the computation ends in a
value. So to keep to a course is something that can be followed through the evaluator. -/

namespace MiniLisp

/-- What is known of a computation. -/
structure Course where
  /-- The stores from which it starts. -/
  ready : Store → Prop
  /-- A store, and what may become of it. -/
  leads : Store → Store → Prop
  /-- What it may end with if not with a value. -/
  halts : Halt → Prop

namespace Course

/-- The courses that go through steps one after the other. -/
structure Lasting (course : Course) : Prop where
  refl : ∀ store, course.leads store store
  trans : ∀ {first second third}, course.leads first second → course.leads second third →
    course.leads first third
  ready : ∀ {first second}, course.leads first second → course.ready first → course.ready second

/-- A course that starts from some store, while another one goes on from a store before it. -/
structure Within (course outer : Course) (begun store : Store) : Prop where
  ready : course.ready begun
  leads : ∀ later, course.leads begun later → outer.leads store later
  halts : ∀ halt, course.halts halt → outer.halts halt

/-- The course along which something stays true. -/
def keeping (fit : Store → Prop) : Course where
  ready := fit
  leads before after := fit before → fit after
  halts _ := True

theorem keeping_lasting (fit : Store → Prop) : (keeping fit).Lasting where
  refl _ holds := holds
  trans first second holds := second (first holds)
  ready kept holds := kept holds

theorem keeping_within {fit : Store → Prop} {begun store : Store} (holds : fit begun) :
    (keeping fit).Within (keeping fit) begun store :=
  ⟨holds, fun _ kept _ => kept holds, fun _ _ => trivial⟩

end Course

namespace EvalM

variable {α β : Type} {course : Course} {good : α → Prop} {good' : β → Prop}

/-- A run that keeps to a course, and ends with a good value if it ends with any. -/
structure KeepsFrom (course : Course) (good : α → Prop) (computation : EvalM α) (store : Store) :
    Prop where
  fine : ∀ value, computation.outcome store = .ok value → good value
  halts : ∀ halt, computation.outcome store = .error halt → course.halts halt
  leads : course.leads store (computation.after store)

/-- A computation that keeps to a course from every store from which the course starts. -/
def Keeps (course : Course) (good : α → Prop) (computation : EvalM α) : Prop :=
  ∀ store, course.ready store → KeepsFrom course good computation store

theorem keeps_modifyGet {value : Store → α} {change : Store → Store}
    (fine : ∀ store, course.ready store → good (value store))
    (leads : ∀ store, course.ready store → course.leads store (change store)) :
    Keeps course good (modifyGet fun store => (value store, change store)) := by
  intro store holds
  refine ⟨?_, nofun, leads store holds⟩
  rintro _ ⟨⟩
  exact fine store holds

/-- A change of the store of which nothing is asked but where it leads. -/
theorem keeps_change {change : Store → Store}
    (leads : ∀ store, course.ready store → course.leads store (change store)) :
    Keeps course (fun _ => True) (modifyGet fun store => ((), change store)) :=
  keeps_modifyGet (fun _ _ => trivial) leads

section
variable (lasting : course.Lasting)
include lasting

theorem keeps_pure (fine : good value) : Keeps course good (pure value) := by
  intro store _
  refine ⟨?_, nofun, lasting.refl store⟩
  rintro _ ⟨⟩
  exact fine

theorem keeps_halt (halts : course.halts halt) : Keeps course good (throw halt) := by
  intro store _
  refine ⟨nofun, ?_, lasting.refl store⟩
  rintro _ ⟨⟩
  exact halts

theorem keeps_ofExcept {ended : Except EvalError α} (fine : ∀ value, ended = .ok value → good value)
    (halts : ∀ error, ended = .error error → course.halts (.error error)) :
    Keeps course good (ofExcept ended) := by
  cases ended with
  | ok value => exact keeps_pure lasting (fine value rfl)
  | error error => exact keeps_halt lasting (halts error rfl)

theorem keeps_lookup {scope : Nat} {name : Symbol} {good : Value → Prop}
    (fine : ∀ store value, course.ready store → store.scopes.lookup scope name = some value →
      good value)
    (halts : course.halts (.error (.unbound name))) : Keeps course good (lookup scope name) := by
  intro store holds
  have leads : course.leads store ((lookup scope name).after store) := by
    rw [after_lookup]
    exact lasting.refl store
  have ended := outcome_lookup scope name store
  cases found : store.scopes.lookup scope name with
  | none =>
    rw [found] at ended
    refine ⟨by simp [ended], ?_, leads⟩
    intro halt halted
    cases ended.symm.trans halted
    exact halts
  | some value =>
    rw [found] at ended
    refine ⟨?_, by simp [ended], leads⟩
    intro value' ended'
    cases ended.symm.trans ended'
    exact fine store value holds found

theorem keeps_write {text : String}
    (leads : ∀ store, course.ready store →
      course.leads store { store with output := store.output.push text })
    (halts : ∀ reason, course.halts (.error (.output reason))) :
    Keeps course (fun _ => True) (write text) := by
  intro store holds
  cases device : store.device with
  | working =>
    have ran := run_write_of_working device text
    exact ⟨fun _ _ => trivial, by simp [outcome, ran], by simpa [after, ran] using leads store holds⟩
  | failing reason =>
    have ran := run_write_of_failing device text
    refine ⟨fun _ _ => trivial, ?_, by simpa [after, ran] using lasting.refl store⟩
    intro halt halted
    rw [outcome, ran] at halted
    cases halted
    exact halts reason

theorem keeps_bind {computation : EvalM α} {next : α → EvalM β}
    (first : Keeps course good computation)
    (rest : ∀ value, good value → Keeps course good' (next value)) :
    Keeps course good' (computation >>= next) := by
  intro store holds
  have begun := first store holds
  cases ended : computation.outcome store with
  | error halt =>
    obtain ⟨outcome, after⟩ := outcome_bind_of_error next ended
    refine ⟨by simp [outcome], ?_, after ▸ begun.leads⟩
    intro halt' halted
    cases outcome.symm.trans halted
    exact begun.halts halt ended
  | ok value =>
    obtain ⟨outcome, after⟩ := outcome_bind_of_ok next ended
    have done := rest value (begun.fine value ended) _ (lasting.ready begun.leads holds)
    exact ⟨outcome ▸ done.fine, outcome ▸ done.halts, after ▸ lasting.trans begun.leads done.leads⟩

/-- A primitive keeps to a course on which notes and texts are no matter. -/
theorem keeps_call {primitive : Primitive} {good : Value → Prop}
    (notes : ∀ event store, course.ready store → course.leads store (store.record event))
    (writes : ∀ text store, course.ready store →
      course.leads store { store with output := store.output.push text })
    (truthful : ∀ error : EvalError, error.Truthful → course.halts (.error error))
    (fine : ∀ value, primitive.result arguments = .ok value → good value) :
    Keeps course good
      (record (.primitive primitive arguments.length) >>= fun _ => primitive.run arguments) := by
  have result : Keeps course good (ofExcept (primitive.result arguments)) :=
    keeps_ofExcept lasting fine fun error failed =>
      truthful error (primitive.result_truthful arguments error failed)
  have written := keeps_write lasting (writes (Value.printLine arguments)) fun reason =>
    truthful (.output reason) trivial
  refine keeps_bind lasting (keeps_change (notes _)) fun _ _ => ?_
  exact Primitive.run_cases result (keeps_bind lasting written fun _ _ => result)

end

/-- What is done in a new scope keeps to the course outside. -/
theorem keeps_enter {next : Nat → EvalM α} {inner : Nat → Course}
    (within : ∀ store, course.ready store →
      (inner store.scopes.size).Within course (store.enter outer params arguments) store)
    (inside : ∀ new, Keeps (inner new) good (next new)) :
    Keeps course good (enter outer params arguments >>= next) := by
  intro store holds
  have begun := within store holds
  have done := inside store.scopes.size _ begun.ready
  exact ⟨done.fine, fun halt ended => begun.halts halt (done.halts halt ended),
    begun.leads _ done.leads⟩

end EvalM

/-! ### Courses of evaluation -/

/-- What is followed when single computations keep to a course. -/
def Reach.along (reach : Reach κ) (course : κ → Course) : Traversal κ where
  toReach := reach
  related ctx good computation _ := EvalM.Keeps (course ctx) good computation

/-- What is asked of a course, for every way in which evaluation changes the store. -/
structure Reach.Steers (reach : Reach κ) (course : κ → Course) : Prop where
  lasting : ∀ ctx, (course ctx).Lasting
  truthful : ∀ {ctx} {error : EvalError}, error.Truthful → (course ctx).halts (.error error)
  record : ∀ {ctx} {event : Event} store, event.isCall = false → (course ctx).ready store →
    (course ctx).leads store (store.record event)
  bind : ∀ {ctx} {name : Symbol} {value} store, reach.allows ctx .define → reach.data value →
    (course ctx).ready store → (course ctx).leads store (store.bind (reach.scope ctx) name value)
  number : ∀ {ctx} store, (course ctx).ready store →
    (course ctx).leads store { store with serial := store.serial + 1 }
  lookup : ∀ {ctx name value} store, reach.whole ctx (.sym name) → (course ctx).ready store →
    store.scopes.lookup (reach.scope ctx) name = some value → reach.data value
  call : ∀ {ctx} {primitive : Primitive} {arguments},
    (∀ argument ∈ arguments, reach.data argument) →
      EvalM.Keeps (course ctx) reach.data
        (EvalM.record (.primitive primitive arguments.length) >>= fun _ => primitive.run arguments)
  enter : ∀ {ctx} store, (course ctx).ready store →
    (course (reach.inside ctx store.scopes.size)).Within (course ctx)
      (store.enter (reach.scope ctx) ⟨[], none⟩ []) store
  enterCall : ∀ {ctx serial params body scope arguments} store,
    reach.data (.closure serial params body scope) → (∀ argument ∈ arguments, reach.data argument) →
      (course ctx).ready store →
        (course (reach.inside ctx store.scopes.size)).Within (course ctx)
          (store.enter scope params arguments) store

theorem Reach.along_lawful {reach : Reach κ} (closed : reach.Closed) {course : κ → Course}
    (steers : reach.Steers course) : (reach.along course).Lawful where
  toClosed := closed
  pure := EvalM.keeps_pure (steers.lasting _)
  fail truthful := EvalM.keeps_halt (steers.lasting _) (steers.truthful truthful)
  bind := EvalM.keeps_bind (steers.lasting _)
  record other := EvalM.keeps_change fun store => steers.record store other
  bindName allowed held := EvalM.keeps_change fun store => steers.bind store allowed held
  takeSerial := EvalM.keeps_modifyGet (fun _ _ => trivial) steers.number
  lookup code := EvalM.keeps_lookup (steers.lasting _)
    (fun store _ ready found => steers.lookup store code ready found) (steers.truthful trivial)
  call := steers.call
  enter := EvalM.keeps_enter steers.enter
  enterCall held each := EvalM.keeps_enter fun store => steers.enterCall store held each

section
variable {reach : Reach κ} {course : κ → Course} (closed : reach.Closed) (steers : reach.Steers course)
include closed steers

/-- If evaluation keeps to the course inside a form, it does so on the form. -/
theorem Reach.evaluateStep_keeps {eval : Evaluator}
    (evaluates : ∀ ctx form, reach.inner ctx form →
      (eval (reach.scope ctx) form).Keeps (course ctx) reach.data)
    {ctx : κ} (code : reach.whole ctx form) :
    (evaluateStep eval (reach.scope ctx) form).Keeps (course ctx) reach.data := by
  have inside : (reach.along course).Evaluates eval eval := evaluates
  exact Traversal.evaluateStep_related (along_lawful closed steers) inside code

variable (recurs : ∀ {ctx form}, reach.inner ctx form → reach.whole ctx form)
  (exhausted : ∀ ctx, (course ctx).halts .exhausted) (depth : Nat)
include recurs exhausted

/-- If to run out of depth is allowed, evaluation keeps to the course at every depth. -/
theorem Reach.evaluate_keeps : (reach.along course).Evaluates (evaluate depth) (evaluate depth) :=
  (along_lawful closed steers).evaluate recurs
    (EvalM.keeps_halt (steers.lasting _) (exhausted _)) depth

theorem Reach.apply_keeps (ctx : κ) {function : Value} (held : reach.data function)
    (each : ∀ argument ∈ arguments, reach.data argument) :
    (apply (evaluate depth) function arguments).Keeps (course ctx) reach.data :=
  Traversal.apply_related (along_lawful closed steers)
    (evaluate_keeps closed steers recurs exhausted depth) ctx held each

end

end MiniLisp
