import Mathlib
import MiniLisp.Proofs.Eval.Definitions
import MiniLisp.Proofs.Reader.Derivation
import MiniLisp.Session

/-! What lines do to a session. A line that reads changes the global scope by the definitions in it
that are completed, even if it fails in the end; a line that does not read changes nothing at all. So
the lines that do not read can be taken out of a run, and all others get the answers that they got. -/

namespace MiniLisp

/-- Whether a line holds a form and reads. -/
def holdsForm (line : String) : Bool := (MiniLisp.read 0 line).isOk

theorem holdsForm_of_read (reads : MiniLisp.read literals line = .ok form) :
    holdsForm line = true := by
  obtain ⟨form', reads', -⟩ := exists_read_renumber 0 reads
  rw [holdsForm, reads']
  rfl

/-- A definition whose form has no value is over when the form is. -/
theorem evaluate_definition_of_error {depth scope : Nat} {name : Symbol} {form : Value}
    {store after : Store} {halt : Halt}
    (failed : (evaluate depth scope form).run.run (store.record (.specialForm .define)) =
      (.error halt, after)) :
    (evaluate (depth + 1) scope (.list [.sym ⟨SpecialForm.define.name⟩, .sym name, form])).run.run
      store = (.error halt, after) := by
  have inner : (evaluateDefinition (evaluate depth) scope [.sym name, form]).run.run
      (store.record (.specialForm .define)) = (.error halt, after) := by
    change (evaluate depth scope form >>= _).run.run _ = _
    rw [EvalM.run_bind, failed]
  exact inner

/-- What a session answers to a form that ends in some way. -/
def Reply.ofEnd : Except Halt Value → Reply
  | .ok value => .printed value.print
  | .error (.error error) => .failed error
  | .error .exhausted => .exhausted

namespace Session

/-- A line that reads is answered as its form ends, and leaves what the form leaves. -/
theorem rep_of_read {session : Session} (reads : MiniLisp.read session.literals line = .ok form)
    (depth : Nat) : session.rep depth line =
      (⟨(MiniLisp.evaluate depth Store.globalScope form.value).after session.store, form.literals⟩,
        .ofEnd ((MiniLisp.evaluate depth Store.globalScope form.value).outcome session.store)) := by
  simp only [rep, evaluate, reads, perform, EvalM.after, EvalM.outcome]
  split <;> simp_all [Outcome.reply, Reply.ofEnd]

theorem rep_store {session : Session} (reads : MiniLisp.read session.literals line = .ok form)
    (depth : Nat) :
    (session.rep depth line).1.store =
      (MiniLisp.evaluate depth Store.globalScope form.value).after session.store := by
  rw [rep_of_read reads]

theorem rep_of_not_holdsForm (absent : holdsForm line = false) (session : Session) (depth : Nat) :
    (session.rep depth line).1 = session := by
  cases reads : MiniLisp.read session.literals line with
  | error error => simp only [rep, evaluate, reads]
  | ok form =>
    rw [holdsForm_of_read reads] at absent
    cases absent

/-- The session after lines that are given to it one after the other, and its answers to them. -/
def run (depth : Nat) (session : Session) : List String → Session × List (String × Reply)
  | [] => (session, [])
  | line :: lines =>
    let (next, reply) := session.rep depth line
    let (last, answers) := run depth next lines
    (last, (line, reply) :: answers)

/-- Lines that do not read can be taken out of a run. -/
theorem run_filter_holdsForm (depth : Nat) (session : Session) (lines : List String) :
    session.run depth (lines.filter holdsForm) =
      ((session.run depth lines).1,
        (session.run depth lines).2.filter fun answer => holdsForm answer.1) := by
  induction lines generalizing session with
  | nil => rfl
  | cons line lines ih =>
    rw [List.filter_cons]
    cases holds : holdsForm line with
    | true => simp [run, ih, holds]
    | false =>
      have same := rep_of_not_holdsForm holds session depth
      simp [run, ih, holds, same]

end Session

/-- After a line, whatever the answer, the global scope is what it was before with the definitions in
it that the line completed, in the order of completion; a definition whose form fails changes nothing
after its form. A line that does not read, or holds no form, leaves the session as it is; so a run
without such lines ends in the same session and has the same answers to all others. -/
theorem lines_commit_definitions :
    (∀ (session : Session) (depth : Nat) (line : String) (form : Numbered Value) (frame : Scope),
      MiniLisp.read session.literals line = .ok form →
        session.store.scopes[Store.globalScope]? = some frame →
          (session.rep depth line).1.store.scopes[Store.globalScope]? =
            some (frame.commit Store.globalScope
              (completed depth ⟨Store.globalScope, form.value, session.store⟩))) ∧
    (∀ depth scope name form store halt after,
      (evaluate depth scope form).run.run (store.record (.specialForm .define)) =
          (.error halt, after) →
        (evaluate (depth + 1) scope
          (.list [.sym ⟨"def!"⟩, .sym name, form])).run.run store = (.error halt, after)) ∧
    (∀ (session : Session) (depth : Nat) (line : String), holdsForm line = false →
      (session.rep depth line).1 = session) ∧
    ∀ (session : Session) (depth : Nat) (lines : List String),
      session.run depth (lines.filter holdsForm) =
        ((session.run depth lines).1,
          (session.run depth lines).2.filter fun answer => holdsForm answer.1) := by
  refine ⟨?_, ?_, ?_, ?_⟩
  · intro session depth line form frame reads held
    rw [Session.rep_store reads]
    exact evaluate_commits _ depth _ form.value session.store frame held
  · intro depth scope name form store halt after failed
    exact evaluate_definition_of_error failed
  · intro session depth line absent
    exact Session.rep_of_not_holdsForm absent session depth
  · intro session depth lines
    exact Session.run_filter_holdsForm depth session lines

/-- The first definition of a line stays although the second one fails. -/
theorem lines_commit_definitions_failed :
    Store.initial.scopes[Store.globalScope]? = some Scope.global ∧
      (Session.initial.rep 4 "(do (def! a 1) (def! b c))").2 = .failed (.unbound ⟨"c"⟩) ∧
      (Session.initial.rep 4 "(do (def! a 1) (def! b c))").1.store.scopes[Store.globalScope]? =
        some (Scope.global.bind ⟨"a"⟩ (.num 1)) := by
  have reads : MiniLisp.read 0 "(do (def! a 1) (def! b c))" =
      .ok ⟨.list [.sym ⟨"do"⟩, .list [.sym ⟨"def!"⟩, .sym ⟨"a"⟩, .num 1],
        .list [.sym ⟨"def!"⟩, .sym ⟨"b"⟩, .sym ⟨"c"⟩]], 0⟩ := by cbv
  have held : Store.initial.scopes[Store.globalScope]? = some Scope.global := rfl
  obtain ⟨commits, -⟩ := lines_commit_definitions
  refine ⟨held, by cbv, ?_⟩
  rw [commits Session.initial 4 _ _ _ reads held]
  cbv

end MiniLisp
