import MiniLisp.Proofs.Eval.FailedWrites
import MiniLisp.Proofs.Session.Lines
import MiniLisp.Proofs.Value.OneLine

/-! Output in whole lines. No value that a session can get hold of has a name with a line feed in it, so
its values are printed on one line each, and every call of prn that finds a working device writes one
whole line. -/

namespace MiniLisp

/-- Nothing is bound that would be printed with a line feed, and what was written are whole lines, on a
working device one for each call of prn. -/
structure Store.Tidy (device : Device) (store : Store) : Prop where
  on : store.device = device
  bound : store.scopes.Hold Value.Unbroken
  lines : ∀ text ∈ store.output, IsLine text.toList
  counted : device = .working → store.output.size = store.log.countP Event.writes

namespace Store.Tidy

variable {device : Device}

theorem initial (device : Device) : (Store.initial.onDevice device).Tidy device where
  on := rfl
  bound := .global Value.hereditary_unbroken
  lines := nofun
  counted _ := rfl

theorem cleared (tidy : Store.Tidy device store) : store.cleared.Tidy device :=
  ⟨tidy.on, tidy.bound, nofun, fun _ => rfl⟩

theorem record (tidy : Store.Tidy device store) (quiet : event.writes = false) :
    (store.record event).Tidy device := by
  refine ⟨tidy.on, tidy.bound, tidy.lines, fun works => ?_⟩
  rw [Store.record, Array.countP_push, quiet]
  exact tidy.counted works

theorem bind (tidy : Store.Tidy device store) (unbroken : Value.Unbroken value) (scope : Nat)
    (name : Symbol) : (store.bind scope name value).Tidy device := by
  have noted : (store.record (.binding name)).Tidy device := tidy.record rfl
  exact { noted with bound := tidy.bound.bind unbroken scope name }

/-- A line for the call of prn that writes it. -/
theorem write (tidy : Store.Tidy device store) (line : IsLine text.toList) (count : Nat) :
    Tidy device
      { store.record (.primitive .prn count) with output := store.output.push text } := by
  refine ⟨tidy.on, tidy.bound, ?_, fun works => ?_⟩
  · rw [Array.forall_mem_push]
    exact ⟨line, tidy.lines⟩
  · change (store.output.push text).size = (store.log.push _).countP _
    rw [Array.size_push, tidy.counted works, Array.countP_push]
    rfl

theorem enter (tidy : Store.Tidy device store) (outer : Nat) (params : Params)
    {arguments : List Value} (each : ∀ argument ∈ arguments, argument.Unbroken) :
    (store.enter outer params arguments).Tidy device := by
  have carried := Value.hereditary_unbroken.bindings params each
  refine Store.enter_induction (motive := Store.Tidy device) ?_ ?_
  · exact { tidy with bound := tidy.bound.push outer }
  · exact fun begun tidy binding member => tidy.bind (carried binding member) _ _

end Store.Tidy

/-- What is evaluated if no name with a line feed in it can be got hold of. -/
def unbroken : Reach Nat where
  scope scope := scope
  inside _ new := new
  whole _ := Value.Unbroken
  inner _ := Value.Unbroken
  allows _ _ := True
  data := Value.Unbroken

theorem unbroken_closed : unbroken.Closed where
  scope_inside := rfl
  hereditary := Value.hereditary_unbroken
  child := Value.hereditary_unbroken.part
  part := Value.hereditary_unbroken.part
  enclosed held := held
  itself held := held
  quoted held := held
  head _ _ := trivial
  define_inside := trivial
  makes := by
    intro _ serial params body _ held
    refine Value.unbroken_closure.2 ?_
    cases body with
    | none => exact Value.hereditary_unbroken.nil
    | some form => exact held form rfl
  body := Value.unbroken_closure.1

/-- A call of a primitive, which is one step: the text that it writes belongs to the note about it. -/
theorem tidy_call (device : Device) (primitive : Primitive)
    (each : ∀ argument ∈ arguments, argument.Unbroken) :
    EvalM.Keeps (.keeping (Store.Tidy device)) Value.Unbroken
      (EvalM.record (.primitive primitive arguments.length) >>= fun _ => primitive.run arguments) := by
  by_cases prn : primitive = .prn
  · subst prn
    intro store tidy
    cases found : store.device with
    | working =>
      have ran := EvalM.run_prn_of_working found arguments
      refine ⟨?_, fun _ _ => trivial, fun _ => ?_⟩
      · rw [EvalM.outcome, ran]
        rintro _ ⟨⟩
        exact Value.hereditary_unbroken.nil
      · rw [EvalM.after, ran]
        exact tidy.write (isLine_printLine each) _
    | failing reason =>
      have ran := EvalM.run_prn_of_failing found arguments
      refine ⟨?_, fun _ _ => trivial, fun _ => ?_⟩
      · rw [EvalM.outcome, ran]
        rintro _ ⟨⟩
      · rw [EvalM.after, ran]
        refine ⟨tidy.on, tidy.bound, tidy.lines, fun works => ?_⟩
        cases found.symm.trans (tidy.on.trans works)
  · have lasting := Course.keeping_lasting (Store.Tidy device)
    have quiet := Event.writes_primitive prn arguments.length
    rw [Primitive.run_of_ne prn]
    refine EvalM.keeps_bind lasting (EvalM.keeps_change fun _ _ tidy => tidy.record quiet) ?_
    intro _ _
    exact EvalM.keeps_ofExcept lasting
      (fun value given => primitive.result_passes Value.hereditary_unbroken each given)
      fun _ _ => trivial

theorem tidy_steers (device : Device) :
    unbroken.Steers fun _ => .keeping (Store.Tidy device) where
  lasting _ := Course.keeping_lasting _
  truthful _ := trivial
  record _ other _ tidy := tidy.record (Event.writes_of_not_isCall other)
  bind _ _ held _ tidy := tidy.bind held _ _
  number _ _ tidy := { tidy with }
  lookup _ _ tidy found := tidy.bound.lookup found
  call each := tidy_call device _ each
  enter _ tidy := Course.keeping_within (tidy.enter _ ⟨[], none⟩ (by simp))
  enterCall _ _ each tidy := Course.keeping_within (tidy.enter _ _ each)

/-- A line keeps a session tidy, and what is printed for it has no line feed. -/
theorem Session.rep_tidy (session : Session) (tidy : session.store.Tidy device) (depth : Nat)
    (line : String) :
    (session.rep depth line).1.store.Tidy device ∧
      ∀ text, (session.rep depth line).2 = .printed text → '\n' ∉ text.toList := by
  cases reads : MiniLisp.read session.literals line with
  | error error =>
    simp only [rep, Session.evaluate, reads]
    refine ⟨tidy, ?_⟩
    intro text printed
    cases error <;> cases printed
  | ok form =>
    have kept := Reach.evaluate_keeps unbroken_closed (tidy_steers device) id (fun _ => trivial) depth
      Store.globalScope form.value (readable_of_read reads).unbroken session.store tidy
    rw [rep_of_read reads]
    refine ⟨kept.leads tidy, ?_⟩
    intro text printed
    cases ended : (MiniLisp.evaluate depth Store.globalScope form.value).outcome session.store with
    | ok value =>
      rw [ended] at printed
      cases printed
      exact (kept.fine value ended).feed_not_mem_print
    | error halt =>
      rw [ended] at printed
      cases halt <;> cases printed

theorem Session.run_tidy (session : Session) (tidy : session.store.Tidy device) (depth : Nat)
    (lines : List String) :
    (session.run depth lines).1.store.Tidy device ∧
      ∀ answer ∈ (session.run depth lines).2, ∀ text, answer.2 = .printed text →
        '\n' ∉ text.toList := by
  induction lines generalizing session with
  | nil => exact ⟨tidy, nofun⟩
  | cons line lines ih =>
    obtain ⟨kept, clean⟩ := rep_tidy session tidy depth line
    obtain ⟨last, others⟩ := ih _ kept
    exact ⟨last, List.forall_mem_cons.2 ⟨clean, others⟩⟩

end MiniLisp
