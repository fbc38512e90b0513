import Mathlib
import MiniLisp.Proofs.Eval.Coupling

/-! Output that cannot be written. An evaluation on a failing device goes as it would on a working one up
to the first text that is to be written. There it ends, with the reason that the device gives and with
nothing done since: no form around it takes the error for something else or goes on after it. -/

namespace MiniLisp

/-- The state with output going to another device. -/
def Store.onDevice (store : Store) (device : Device) : Store := { store with device := device }

/-- Whether a text is about to be written. -/
def Event.writes : Event → Bool
  | primitive .prn _ => true
  | _ => false

theorem Event.writes_of_not_isCall (other : isCall event = false) : event.writes = false := by
  cases event <;> first | rfl | cases other

theorem Event.writes_primitive (other : function ≠ Primitive.prn) (count : Nat) :
    (Event.primitive function count).writes = false := by
  cases function <;> first | rfl | exact (other rfl).elim

/-- The log of a store goes on with some events. -/
def Store.Notes (start : Store) (events : List Event) (store : Store) : Prop :=
  store.log.toList = start.log.toList ++ events

/-- From one store to another nothing was written. -/
structure Silent (start store : Store) : Prop where
  output : store.output = start.output
  events : ∃ events, start.Notes events store ∧ ∀ event ∈ events, event.writes = false

/-- From one store to another something was written, and a third one is left by a run that ended where
the first text was to be written. -/
structure Cut (start stopped store : Store) : Prop where
  silent : stopped.output = start.output
  written : ∃ text texts, store.output.toList = start.output.toList ++ text :: texts
  events : ∃ before event rest, (∀ event ∈ before, event.writes = false) ∧ event.writes = true ∧
    start.Notes (before ++ [event]) stopped ∧ stopped.Notes rest store

theorem Silent.refl (start : Store) : Silent start start :=
  ⟨rfl, [], by simp [Store.Notes], by simp⟩

theorem Store.Notes.trans {start middle store : Store} (first : start.Notes events middle)
    (second : middle.Notes later store) : start.Notes (events ++ later) store := by
  rw [Store.Notes] at first second ⊢
  rw [second, first, List.append_assoc]

/-- A change that writes nothing and does not ask for the device. -/
structure Mute (change : Store → Store) : Prop where
  device : ∀ store device, change (store.onDevice device) = (change store).onDevice device
  silent : ∀ store, Silent store (change store)

namespace Mute

theorem of_same_log {change : Store → Store}
    (device : ∀ store device, change (store.onDevice device) = (change store).onDevice device)
    (output : ∀ store, (change store).output = store.output)
    (log : ∀ store, (change store).log = store.log) : Mute change := by
  refine ⟨device, fun store => ⟨output store, [], ?_, by simp⟩⟩
  rw [Store.Notes, log, List.append_nil]

theorem of_note {change : Store → Store} (event : Event)
    (device : ∀ store device, change (store.onDevice device) = (change store).onDevice device)
    (output : ∀ store, (change store).output = store.output)
    (log : ∀ store, (change store).log = store.log.push event) (quiet : event.writes = false) :
    Mute change := by
  refine ⟨device, fun store => ⟨output store, [event], ?_, by simpa using quiet⟩⟩
  rw [Store.Notes, log, Array.toList_push]

end Mute

theorem Silent.trans (first : Silent start middle) (second : Silent middle store) :
    Silent start store := by
  obtain ⟨events, noted, quiet⟩ := first.events
  obtain ⟨later, noted', quiet'⟩ := second.events
  refine ⟨second.output.trans first.output, events ++ later, noted.trans noted', ?_⟩
  intro event member
  rcases List.mem_append.1 member with member | member
  · exact quiet event member
  · exact quiet' event member

/-- What is written and noted later does not matter for the cut. -/
theorem Cut.later (cut : Cut start stopped store) (noted : store.Notes more store')
    (output : ∃ texts, store'.output.toList = store.output.toList ++ texts) :
    Cut start stopped store' := by
  obtain ⟨text, texts, written⟩ := cut.written
  obtain ⟨others, output⟩ := output
  obtain ⟨before, event, rest, quiet, writes, cutShort, goesOn⟩ := cut.events
  refine ⟨cut.silent, ⟨text, texts ++ others, ?_⟩, before, event, rest ++ more, quiet, writes,
    cutShort, goesOn.trans noted⟩
  rw [output, written, List.append_assoc]
  rfl

/-- A run on a failing device beside one on a working device. -/
def deviceCoupling (reason : String) (start : Store) : Coupling where
  code _ := True
  level store store' :=
    store = store'.onDevice (.failing reason) ∧ store'.device = .working ∧ Silent start store'
  stop := .error (.output reason)
  parted := Cut start

theorem Mute.keeps {change : Store → Store} (mute : Mute change) (reason : String) (start : Store) :
    (deviceCoupling reason start).Keeps change := by
  refine ⟨?_, ?_⟩
  · rintro store store' ⟨rfl, works, silent⟩
    refine ⟨mute.device store' (.failing reason), ?_, silent.trans (mute.silent store')⟩
    have here := mute.device store' .working
    have same : store'.onDevice .working = store' := by
      rw [← works]
      rfl
    rw [same] at here
    rw [here]
    rfl
  · intro stopped store' cut
    obtain ⟨events, noted, -⟩ := (mute.silent store').events
    exact cut.later noted ⟨[], by rw [(mute.silent store').output, List.append_nil]⟩

theorem mute_record {event : Event} (quiet : event.writes = false) :
    Mute fun store => store.record event :=
  .of_note event (fun _ _ => rfl) (fun _ => rfl) (fun _ => rfl) quiet

theorem mute_bind (scope : Nat) (name : Symbol) (value : Value) :
    Mute fun store => store.bind scope name value :=
  .of_note (.binding name) (fun _ _ => rfl) (fun _ => rfl) (fun _ => rfl) rfl

theorem mute_addScope (scope : Scope) : Mute fun store => store.addScope scope :=
  .of_same_log (fun _ _ => rfl) (fun _ => rfl) fun _ => rfl

theorem mute_number : Mute fun store => { store with serial := store.serial + 1 } :=
  .of_same_log (fun _ _ => rfl) (fun _ => rfl) fun _ => rfl

theorem deviceCoupling_carries (reason : String) (start : Store) (value : Value) :
    value.Carries (deviceCoupling reason start).code :=
  Value.carries_of_all (fun _ => trivial) value

namespace EvalM

/-- The note about a text to be written and the writing, on either device. -/
theorem run_prn_of_working (works : store.device = .working) (arguments : List Value) :
    (record (.primitive .prn arguments.length) >>= fun _ =>
        Primitive.prn.run arguments).run.run store =
      (.ok .nil, { store.record (.primitive .prn arguments.length) with
        output := store.output.push (Value.printLine arguments) }) := by
  obtain ⟨scopes, serial, output, log, device⟩ := store
  cases works
  rfl

theorem run_prn_of_failing (fails : store.device = .failing reason) (arguments : List Value) :
    (record (.primitive .prn arguments.length) >>= fun _ =>
        Primitive.prn.run arguments).run.run store =
      (.error (.error (.output reason)), store.record (.primitive .prn arguments.length)) := by
  obtain ⟨scopes, serial, output, log, device⟩ := store
  cases fails
  rfl

end EvalM

/-- A text is written by the second run, and the first one ends there. -/
theorem prn_inStep (reason : String) (start : Store) (arguments : List Value) :
    (deviceCoupling reason start).InStep (Value.Carries (deviceCoupling reason start).code)
      (EvalM.record (.primitive .prn arguments.length) >>= fun _ => Primitive.prn.run arguments)
      (EvalM.record (.primitive .prn arguments.length) >>= fun _ => Primitive.prn.run arguments) := by
  refine ⟨?_, ?_⟩
  · rintro store store' ⟨rfl, works, silent⟩
    refine ⟨fun value _ => deviceCoupling_carries reason start value, .inr ?_⟩
    obtain ⟨events, noted, quiet⟩ := silent.events
    have failing := @EvalM.run_prn_of_failing (store'.onDevice (.failing reason)) reason rfl arguments
    have working := EvalM.run_prn_of_working works arguments
    refine ⟨congrArg Prod.fst failing, ?_⟩
    rw [EvalM.after, EvalM.after, failing, working]
    refine ⟨silent.output, ⟨Value.printLine arguments, [], ?_⟩, events,
      .primitive .prn arguments.length, [], quiet, rfl, ?_, ?_⟩
    · rw [← silent.output, Array.toList_push]
    · exact noted.trans (Array.toList_push)
    · exact (List.append_nil _).symm
  · intro stopped store' cut
    refine ⟨fun value _ => deviceCoupling_carries reason start value, ?_⟩
    cases device : store'.device with
    | working =>
      have working := EvalM.run_prn_of_working device arguments
      rw [EvalM.after, working]
      exact cut.later Array.toList_push ⟨[_], Array.toList_push⟩
    | failing reason' =>
      have failing := EvalM.run_prn_of_failing device arguments
      rw [EvalM.after, failing]
      exact cut.later Array.toList_push ⟨[], (List.append_nil _).symm⟩

theorem deviceCoupling_lawful (reason : String) (start : Store) :
    (deviceCoupling reason start).Lawful where
  part _ _ := trivial
  body _ := trivial
  nil := trivial
  numbers := by
    rintro store store' ⟨rfl, -⟩
    exact ⟨rfl, rfl⟩
  record event other := (mute_record (Event.writes_of_not_isCall other)).keeps reason start
  bind scope name value _ := (mute_bind scope name value).keeps reason start
  addScope outer := (mute_addScope (.inside outer)).keeps reason start
  number := mute_number.keeps reason start
  lookup scope name _ := by
    refine Coupling.lookup_inStep ?_ fun _ _ value _ _ => deviceCoupling_carries reason start value
    rintro store store' ⟨rfl, -⟩
    rfl
  call primitive arguments _ := by
    by_cases prn : primitive = .prn
    · subst prn
      exact prn_inStep reason start arguments
    · rw [Primitive.run_of_ne prn]
      have quiet := mute_record (Event.writes_primitive prn arguments.length)
      refine (quiet.keeps reason start).record.bind fun _ _ => ?_
      exact .ofExcept fun value _ => deviceCoupling_carries reason start value

/-- An evaluation on a working device beside the same one on a failing device. Up to some place the
working run goes on with some events. If it writes nothing, none of them is about writing, and the run
on the failing device ends alike and leaves the same state. If one of them is, then the reason of the
device is what the other run ends with: its log stops at the first of these events, and nothing was
written. -/
theorem failed_write_ends_evaluation (depth scope : Nat) (form : Value) (store : Store)
    (works : store.device = .working) (reason : String) :
    ∃ events, store.Notes events ((evaluate depth scope form).after store) ∧
      (((evaluate depth scope form).after store).output = store.output ↔
        ∀ event ∈ events, event.writes = false) ∧
      (((evaluate depth scope form).after store).output = store.output →
        (evaluate depth scope form).outcome (store.onDevice (.failing reason)) =
            (evaluate depth scope form).outcome store ∧
          (evaluate depth scope form).after (store.onDevice (.failing reason)) =
            ((evaluate depth scope form).after store).onDevice (.failing reason)) ∧
      ((∃ event ∈ events, event.writes = true) →
        (evaluate depth scope form).outcome (store.onDevice (.failing reason)) =
            .error (.error (.output reason)) ∧
          ((evaluate depth scope form).after (store.onDevice (.failing reason))).output = store.output ∧
          ∃ before event rest, events = before ++ event :: rest ∧
            (∀ event ∈ before, event.writes = false) ∧ event.writes = true ∧
            store.Notes (before ++ [event])
              ((evaluate depth scope form).after (store.onDevice (.failing reason)))) := by
  have runs := Coupling.evaluate_inStep (deviceCoupling_lawful reason store) depth scope form trivial
  obtain ⟨-, step⟩ := runs.level (store.onDevice (.failing reason)) store ⟨rfl, works, .refl store⟩
  rcases step with ⟨same, level, -, silent⟩ | ⟨stopped, cut⟩
  · obtain ⟨events, noted, quiet⟩ := silent.events
    refine ⟨events, noted, ?_, ?_, ?_⟩
    · exact ⟨fun _ => quiet, fun _ => silent.output⟩
    · exact fun _ => ⟨same.symm, level⟩
    · rintro ⟨event, member, writes⟩
      rw [quiet event member] at writes
      cases writes
  · obtain ⟨text, texts, written⟩ := cut.written
    obtain ⟨before, event, rest, quiet, writes, cutShort, goesOn⟩ := cut.events
    have noted := cutShort.trans goesOn
    rw [List.append_assoc] at noted
    have wrote : ((evaluate depth scope form).after store).output ≠ store.output := by
      intro same
      rw [same] at written
      simp at written
    refine ⟨_, noted, ?_, ?_, ?_⟩
    · refine ⟨fun same => (wrote same).elim, fun none => ?_⟩
      rw [none event (by simp)] at writes
      cases writes
    · exact fun same => (wrote same).elim
    · exact fun _ => ⟨stopped, cut.silent, before, event, rest, rfl, quiet, writes, cutShort⟩

/-- The first text is not written, so the unbound name after it is never looked up. -/
theorem failed_write_ends_evaluation_sequence :
    Store.initial.device = .working ∧
      (evaluate 3 0 (.list [.sym ⟨"do"⟩, .list [.sym ⟨"prn"⟩, .num 1], .sym ⟨"x"⟩])).outcome
        Store.initial = .error (.error (.unbound ⟨"x"⟩)) ∧
      (evaluate 3 0 (.list [.sym ⟨"do"⟩, .list [.sym ⟨"prn"⟩, .num 1], .sym ⟨"x"⟩])).outcome
        (Store.initial.onDevice (.failing "closed")) = .error (.error (.output "closed")) := by
  have works : Store.initial.device = .working := rfl
  have written : ((evaluate 3 0 (.list [.sym ⟨"do"⟩, .list [.sym ⟨"prn"⟩, .num 1],
      .sym ⟨"x"⟩])).after Store.initial).output = #["1\n"] := by cbv
  obtain ⟨events, -, silent, -, fails⟩ := failed_write_ends_evaluation 3 0
    (.list [.sym ⟨"do"⟩, .list [.sym ⟨"prn"⟩, .num 1], .sym ⟨"x"⟩]) Store.initial works "closed"
  have writes : ¬ ∀ event ∈ events, event.writes = false := by
    intro none
    have same := silent.2 none
    rw [written] at same
    exact absurd (congrArg Array.size same) (by decide)
  exact ⟨works, by cbv, (fails (by simpa using writes)).1⟩

end MiniLisp
