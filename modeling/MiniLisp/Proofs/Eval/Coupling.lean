import MiniLisp.Proofs.Eval.Steps
import MiniLisp.Proofs.Eval.Traversal

/-! Two runs of one program side by side. They start from stores that are related, every step leaves
them related and ends alike in both, and so does the whole evaluation. One of them may come to a stop
on the way. It ends with a halt that is agreed beforehand, the other one goes on alone, and how the
store of the first is related to that of the second must last whatever the second still does.

Which stores are related, and what is known of the forms that are evaluated, is left open here. What is
asked of the changes to the store stands in `Coupling.Lawful`, for every way in which the evaluator
changes it. With that, being in step is what a traversal of the evaluator follows. -/

namespace MiniLisp

open Value

theorem Primitive.run_of_ne {primitive : Primitive} (other : primitive ≠ .prn)
    (arguments : List Value) :
    primitive.run arguments = EvalM.ofExcept (primitive.result arguments) := by
  simp only [Primitive.run, other, ↓reduceIte]

/-- How two runs are related. -/
structure Coupling where
  /-- The forms that are evaluated, and the bodies of all closures that are passed around. -/
  code : Value → Prop
  /-- The stores of the two runs as long as they are in step. -/
  level : Store → Store → Prop
  /-- What the first run ends with if it is the only one to end. -/
  stop : Halt
  /-- The store that the first run left, and that of the second one later on. -/
  parted : Store → Store → Prop

namespace Coupling

variable {α β : Type} {coupling : Coupling} {good : α → Prop} {good' : β → Prop}

/-- Two computations that end alike in stores that are related, or of which the first one stops. The
values that they end with are good ones. -/
structure InStep (coupling : Coupling) (good : α → Prop) (first second : EvalM α) : Prop where
  level : ∀ store store', coupling.level store store' →
    (∀ value, second.outcome store' = .ok value → good value) ∧
      (second.outcome store' = first.outcome store ∧
          coupling.level (first.after store) (second.after store') ∨
        first.outcome store = .error coupling.stop ∧
          coupling.parted (first.after store) (second.after store'))
  parted : ∀ stopped store', coupling.parted stopped store' →
    (∀ value, second.outcome store' = .ok value → good value) ∧
      coupling.parted stopped (second.after store')

namespace InStep

theorem pure (fine : good value) : coupling.InStep good (pure value) (pure value) := by
  have ends : ∀ store value', (Pure.pure value : EvalM α).outcome store = .ok value' →
      good value' := by
    intro store value' same
    cases same
    exact fine
  exact ⟨fun store store' level => ⟨ends store', .inl ⟨rfl, level⟩⟩,
    fun stopped store' parted => ⟨ends store', parted⟩⟩

theorem halt (halt : Halt) : coupling.InStep good (throw halt) (throw halt) :=
  ⟨fun _ _ level => ⟨nofun, .inl ⟨rfl, level⟩⟩, fun _ _ parted => ⟨nofun, parted⟩⟩

theorem fail (error : EvalError) : coupling.InStep good (EvalM.fail error) (EvalM.fail error) :=
  halt (.error error)

theorem ofExcept {ended : Except EvalError α} (fine : ∀ value, ended = .ok value → good value) :
    coupling.InStep good (EvalM.ofExcept ended) (EvalM.ofExcept ended) := by
  cases ended with
  | ok value => exact pure (fine value rfl)
  | error error => exact fail error

theorem bind {first second : EvalM α} {next next' : α → EvalM β}
    (begun : coupling.InStep good first second)
    (rest : ∀ value, good value → coupling.InStep good' (next value) (next' value)) :
    coupling.InStep good' (first >>= next) (second >>= next') := by
  refine ⟨?_, ?_⟩
  · intro store store' level
    obtain ⟨fine, step⟩ := begun.level store store' level
    cases ended : second.outcome store' with
    | error halt =>
      obtain ⟨ends, leaves⟩ := EvalM.outcome_bind_of_error next' ended
      rw [ends, leaves]
      refine ⟨nofun, ?_⟩
      rcases step with ⟨same, level⟩ | ⟨stopped, parted⟩
      · obtain ⟨ends, leaves⟩ := EvalM.outcome_bind_of_error next (same.symm.trans ended)
        rw [ends, leaves]
        exact .inl ⟨rfl, level⟩
      · obtain ⟨ends, leaves⟩ := EvalM.outcome_bind_of_error next stopped
        rw [ends, leaves]
        exact .inr ⟨rfl, parted⟩
    | ok value =>
      obtain ⟨ends, leaves⟩ := EvalM.outcome_bind_of_ok next' ended
      rw [ends, leaves]
      rcases step with ⟨same, level⟩ | ⟨stopped, parted⟩
      · obtain ⟨ends, leaves⟩ := EvalM.outcome_bind_of_ok next (same.symm.trans ended)
        rw [ends, leaves]
        exact (rest value (fine value ended)).level _ _ level
      · -- The first run is over, and the second one goes on alone.
        obtain ⟨ends, leaves⟩ := EvalM.outcome_bind_of_error next stopped
        rw [ends, leaves]
        obtain ⟨fine', parted⟩ := (rest value (fine value ended)).parted _ _ parted
        exact ⟨fine', .inr ⟨rfl, parted⟩⟩
  · intro stopped store' parted
    obtain ⟨fine, parted⟩ := begun.parted stopped store' parted
    cases ended : second.outcome store' with
    | error halt =>
      obtain ⟨ends, leaves⟩ := EvalM.outcome_bind_of_error next' ended
      rw [ends, leaves]
      exact ⟨nofun, parted⟩
    | ok value =>
      obtain ⟨ends, leaves⟩ := EvalM.outcome_bind_of_ok next' ended
      rw [ends, leaves]
      exact (rest value (fine value ended)).parted _ _ parted

end InStep

/-- A change of the store after which the stores are related as they were. -/
structure Keeps (coupling : Coupling) (change : Store → Store) : Prop where
  level : ∀ store store', coupling.level store store' → coupling.level (change store) (change store')
  parted : ∀ stopped store', coupling.parted stopped store' → coupling.parted stopped (change store')

/-- Computations that change the store in this way and end alike are in step. -/
theorem Keeps.inStep {change : Store → Store} (keeps : coupling.Keeps change) {number : Store → α}
    (fine : ∀ store, good (number store))
    (same : ∀ store store', coupling.level store store' → number store' = number store) :
    coupling.InStep good (modifyGet fun store => (number store, change store))
      (modifyGet fun store => (number store, change store)) := by
  have ends : ∀ (store : Store) value, (Except.ok (number store) : Except Halt α) = .ok value →
      good value := by
    rintro store _ ⟨⟩
    exact fine store
  refine ⟨fun store store' level => ⟨ends store', .inl ⟨?_, keeps.level _ _ level⟩⟩,
    fun stopped store' parted => ⟨ends store', keeps.parted _ _ parted⟩⟩
  exact congrArg Except.ok (same store store' level)

theorem Keeps.record {event : Event} (keeps : coupling.Keeps fun store => store.record event) :
    coupling.InStep (fun _ => True) (EvalM.record event) (EvalM.record event) :=
  keeps.inStep (fun _ => trivial) fun _ _ _ => rfl

/-- A name is looked up in step if its value is the same in stores that are related. -/
theorem lookup_inStep {scope : Nat} {name : Symbol} {good : Value → Prop}
    (same : ∀ store store', coupling.level store store' →
      store'.scopes.lookup scope name = store.scopes.lookup scope name)
    (fine : ∀ store store' value, coupling.level store store' ∨ coupling.parted store store' →
      store'.scopes.lookup scope name = some value → good value) :
    coupling.InStep good (EvalM.lookup scope name) (EvalM.lookup scope name) := by
  have ends : ∀ store store', coupling.level store store' ∨ coupling.parted store store' →
      ∀ value, (EvalM.lookup scope name).outcome store' = .ok value → good value := by
    intro store store' related value ended
    rw [EvalM.outcome_lookup] at ended
    split at ended
    · next value' found =>
      cases ended
      exact fine store store' value related found
    · cases ended
  refine ⟨fun store store' level => ⟨ends _ _ (.inl level), .inl ⟨?_, ?_⟩⟩,
    fun stopped store' parted => ⟨ends _ _ (.inr parted), ?_⟩⟩
  · rw [EvalM.outcome_lookup, EvalM.outcome_lookup, same store store' level]
  · rwa [EvalM.after_lookup, EvalM.after_lookup]
  · rwa [EvalM.after_lookup]

/-- A text is written in step if the devices are the same. -/
theorem write_inStep {text : String}
    (keeps : coupling.Keeps fun store => { store with output := store.output.push text })
    (same : ∀ store store', coupling.level store store' → store'.device = store.device) :
    coupling.InStep (fun _ => True) (EvalM.write text) (EvalM.write text) := by
  refine ⟨fun store store' level => ⟨fun _ _ => trivial, .inl ?_⟩,
    fun stopped store' parted => ⟨fun _ _ => trivial, ?_⟩⟩
  · have device := same store store' level
    cases found : store.device with
    | working =>
      simp only [EvalM.outcome, EvalM.after, EvalM.run_write_of_working found,
        EvalM.run_write_of_working (device.trans found)]
      exact ⟨trivial, keeps.level _ _ level⟩
    | failing reason =>
      simp only [EvalM.outcome, EvalM.after, EvalM.run_write_of_failing found,
        EvalM.run_write_of_failing (device.trans found)]
      exact ⟨trivial, level⟩
  · cases found : store'.device with
    | working =>
      simp only [EvalM.after, EvalM.run_write_of_working found]
      exact keeps.parted _ _ parted
    | failing reason =>
      simp only [EvalM.after, EvalM.run_write_of_failing found]
      exact parted

/-- A primitive is called in step if notes and texts are no matter. -/
theorem call_inStep {primitive : Primitive}
    (record : ∀ event, coupling.Keeps fun store => store.record event)
    (write : ∀ text, coupling.InStep (fun _ => True) (EvalM.write text) (EvalM.write text))
    (each : ∀ argument ∈ arguments, Carries coupling.code argument) :
    coupling.InStep (Carries coupling.code)
      (EvalM.record (.primitive primitive arguments.length) >>= fun _ => primitive.run arguments)
      (EvalM.record (.primitive primitive arguments.length) >>= fun _ => primitive.run arguments) := by
  have result : coupling.InStep (Carries coupling.code)
      (EvalM.ofExcept (primitive.result arguments)) (EvalM.ofExcept (primitive.result arguments)) :=
    .ofExcept fun value given => primitive.result_passes (hereditary_carries _) each given
  refine (record (.primitive primitive arguments.length)).record.bind fun _ _ => ?_
  exact Primitive.run_cases (motive := fun run => coupling.InStep _ run run) result
    ((write _).bind fun _ _ => result)

/-- What is asked of forms and of the changes to the store, when all that counts in a value are the bodies
of its closures. The note about a primitive belongs to the call of the primitive, which is one step. -/
structure Lawful (coupling : Coupling) : Prop where
  part : ∀ {form inner : Value}, coupling.code form → inner ∈ form.children → coupling.code inner
  body : ∀ {serial params body scope}, coupling.code (.closure serial params body scope) →
    coupling.code body
  nil : coupling.code .nil
  numbers : ∀ store store', coupling.level store store' →
    store'.serial = store.serial ∧ store'.scopes.size = store.scopes.size
  record : ∀ event : Event, event.isCall = false → coupling.Keeps fun store => store.record event
  bind : ∀ scope name value, Carries coupling.code value →
    coupling.Keeps fun store => store.bind scope name value
  addScope : ∀ outer, coupling.Keeps fun store => store.addScope (.inside outer)
  number : coupling.Keeps fun store => { store with serial := store.serial + 1 }
  lookup : ∀ scope name, coupling.code (.sym name) →
    coupling.InStep (Carries coupling.code) (EvalM.lookup scope name) (EvalM.lookup scope name)
  call : ∀ (primitive : Primitive) arguments, (∀ argument ∈ arguments, Carries coupling.code argument) →
    coupling.InStep (Carries coupling.code)
      (EvalM.record (.primitive primitive arguments.length) >>= fun _ => primitive.run arguments)
      (EvalM.record (.primitive primitive arguments.length) >>= fun _ => primitive.run arguments)

namespace Lawful

theorem contained {inner : Value} (lawful : coupling.Lawful) (code : coupling.code form)
    (inside : form.Contains inner) : coupling.code inner := by
  induction inside with
  | self => exact code
  | child held _ ih => exact ih (lawful.part code held)

/-- A form that may be evaluated may also be passed around. -/
theorem carries (lawful : coupling.Lawful) (code : coupling.code form) : Carries coupling.code form :=
  fun _ _ _ _ inside => lawful.body (lawful.contained code inside)

section
variable (lawful : coupling.Lawful)
include lawful

theorem inStep_record {event : Event} (other : event.isCall = false) :
    coupling.InStep (fun _ => True) (EvalM.record event) (EvalM.record event) :=
  (lawful.record event other).record

theorem inStep_bindName (scope : Nat) (name : Symbol) (kind : Carries coupling.code value) :
    coupling.InStep (fun _ => True) (EvalM.bindName scope name value)
      (EvalM.bindName scope name value) :=
  (lawful.bind scope name value kind).inStep (fun _ => trivial) fun _ _ _ => rfl

theorem inStep_takeSerial : coupling.InStep (fun _ => True) EvalM.takeSerial EvalM.takeSerial :=
  lawful.number.inStep (fun _ => trivial) fun store store' level =>
    (lawful.numbers store store' level).1

/-- Bindings are made one after the other, in both runs in one scope. -/
theorem keeps_bindings (inner : Nat) {bindings : List (Symbol × Value)}
    (each : ∀ binding ∈ bindings, Carries coupling.code binding.2) :
    coupling.Keeps fun store => store.bindAll inner bindings := by
  induction bindings with
  | nil => exact ⟨fun _ _ level => level, fun _ _ parted => parted⟩
  | cons binding bindings ih =>
    have others := ih fun other member => each other (List.mem_cons_of_mem _ member)
    have here := lawful.bind inner binding.1 binding.2 (each binding List.mem_cons_self)
    exact ⟨fun store store' level => others.level _ _ (here.level _ _ level),
      fun stopped store' parted => others.parted _ _ (here.parted _ _ parted)⟩

/-- A scope for the arguments of a call is made and filled in both runs alike. -/
theorem keeps_enter (outer : Nat) (params : Params) {arguments : List Value}
    (each : ∀ argument ∈ arguments, Carries coupling.code argument) :
    coupling.Keeps fun store => store.enter outer params arguments := by
  have carried := (hereditary_carries coupling.code).bindings params each
  have bound := fun inner => lawful.keeps_bindings inner carried
  have begun := lawful.addScope outer
  simp only [Store.enter_eq_bindAll]
  refine ⟨fun store store' level => ?_, fun stopped store' parted => ?_⟩
  · rw [(lawful.numbers store store' level).2]
    exact (bound _).level _ _ (begun.level _ _ level)
  · exact (bound _).parted _ _ (begun.parted _ _ parted)

theorem inStep_enter (outer : Nat) (params : Params) {arguments : List Value}
    (each : ∀ argument ∈ arguments, Carries coupling.code argument) :
    coupling.InStep (fun _ => True) (EvalM.enter outer params arguments)
      (EvalM.enter outer params arguments) :=
  (lawful.keeps_enter outer params each).inStep (fun _ => trivial) fun store store' level =>
    (lawful.numbers store store' level).2

end

end Lawful

/-! ### The evaluator -/

/-- Two evaluators under which forms are evaluated in step. -/
def EvaluatesInStep (coupling : Coupling) (eval eval' : Evaluator) : Prop :=
  ∀ scope form, coupling.code form →
    coupling.InStep (Carries coupling.code) (eval scope form) (eval' scope form)

/-- What is followed when two runs are compared. The scope makes no difference to it. -/
def traversal (coupling : Coupling) : Traversal Nat where
  scope scope := scope
  inside _ new := new
  whole _ := coupling.code
  inner _ := coupling.code
  allows _ _ := True
  data := Carries coupling.code
  related _ good first second := coupling.InStep good first second

theorem traversal_lawful (lawful : coupling.Lawful) : coupling.traversal.Lawful where
  scope_inside := rfl
  hereditary := hereditary_carries coupling.code
  child := lawful.part
  part := lawful.part
  enclosed code := code
  itself := lawful.carries
  quoted := lawful.carries
  head _ _ := trivial
  define_inside := trivial
  makes := by
    intro _ serial params body _ code
    refine carries_closure.2 ?_
    cases body with
    | none => exact lawful.nil
    | some form => exact code form rfl
  body := carries_closure.1
  pure := InStep.pure
  fail _ := InStep.fail _
  bind := InStep.bind
  record := lawful.inStep_record
  bindName _ held := lawful.inStep_bindName _ _ held
  takeSerial := lawful.inStep_takeSerial
  lookup := lawful.lookup _ _
  call each := lawful.call _ _ each
  enter next := (lawful.inStep_enter _ ⟨[], none⟩ (by simp)).bind fun new _ => next new
  enterCall _ each next := (lawful.inStep_enter _ _ each).bind fun new _ => next new

section
variable {eval eval' : Evaluator} (lawful : coupling.Lawful)
  (inside : coupling.EvaluatesInStep eval eval')
include lawful inside

theorem apply_inStep {function : Value} (held : Carries coupling.code function)
    (each : ∀ argument ∈ arguments, Carries coupling.code argument) :
    coupling.InStep (Carries coupling.code) (apply eval function arguments)
      (apply eval' function arguments) :=
  Traversal.apply_related (traversal_lawful lawful) inside Store.globalScope held each

theorem evaluateStep_inStep : coupling.EvaluatesInStep (evaluateStep eval) (evaluateStep eval') :=
  fun _ _ code => Traversal.evaluateStep_related (traversal_lawful lawful) inside code

end

/-- Runs that start in step stay so, at any depth. -/
theorem evaluate_inStep (lawful : coupling.Lawful) (depth : Nat) :
    coupling.EvaluatesInStep (evaluate depth) (evaluate depth) :=
  (traversal_lawful lawful).evaluate id (InStep.halt .exhausted) depth

end Coupling

end MiniLisp
