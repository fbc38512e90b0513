import Mathlib
import MiniLisp.Console.Repl
import MiniLisp.Proofs.Console.Turns

/-! The two consoles beside each other. On lines that are complete by themselves, and that the line editor
passes on as they stand, each console answers each line by itself, both keep the same session, and they
show the same results; only the wording of the errors differs. -/

namespace MiniLisp

/-- What a console shows for each of some lines, taking one after the other. -/
def answers {σ : Type} (feed : σ → Line → σ × List Emission) (state : σ) :
    List Line → List (List Emission)
  | [] => []
  | line :: lines =>
    let (next, emissions) := feed state line
    emissions :: answers feed next lines

theorem LineDriver.feedAll_eq_answers (depth : Nat) (session : Session) (lines : List Line) :
    feedAll depth session lines = (answers (feed depth) session lines).flatten := by
  induction lines generalizing session with
  | nil => rfl
  | cons line lines ih => rw [feedAll, answers, List.flatten_cons, ← ih]

theorem Repl.feedAll_eq_answers (edited : List Char → List Char) (depth : Nat) (repl : Repl)
    (lines : List Line) :
    feedAll edited depth repl lines = (answers (feed edited depth) repl lines).flatten := by
  induction lines generalizing repl with
  | nil => rfl
  | cons line lines ih => rw [feedAll, answers, List.flatten_cons, ← ih]

/-- Two consoles that are in step at each line answer all lines alike. -/
theorem answers_in_step {σ τ : Type} {feed : σ → Line → σ × List Emission}
    {feed' : τ → Line → τ × List Emission} {fine : Line → Prop}
    {alike : List Emission → List Emission → Prop} (level : σ → τ → Prop)
    (step : ∀ state state' line, fine line → level state state' →
      level (feed state line).1 (feed' state' line).1 ∧
        alike (feed state line).2 (feed' state' line).2)
    {lines : List Line} (each : ∀ line ∈ lines, fine line) {state : σ} {state' : τ}
    (start : level state state') :
    List.Forall₂ alike (answers feed state lines) (answers feed' state' lines) := by
  induction lines generalizing state state' with
  | nil => exact .nil
  | cons line lines ih =>
    rw [List.forall_mem_cons] at each
    obtain ⟨further, here⟩ := step state state' line each.1 start
    exact .cons here (ih each.2 further)

/-- What the interactive console shows for a line is what the plain one shows, up to the wording of an
error, and then the next prompt. -/
structure Alike (prompt : String) (plain interactive : List Emission) : Prop where
  results : interactive.flatMap Emission.result =
    plain.flatMap Emission.result ++ prompt.toList
  errors : (∃ line, .err line ∈ interactive) ↔ ∃ line, .err line ∈ plain

theorem Reply.alike (reply : Reply) (written prompt : String)
    (unreadText unreadText' : ReadError → String) (failedText failedText' : EvalError → String) :
    Alike prompt (reply.emissions written unreadText failedText)
      (reply.emissions written unreadText' failedText' ++ [.out prompt]) := by
  cases reply <;> constructor <;> simp [emissions, Emission.result]

/-- A line that is complete by itself and does not ask to leave. -/
structure Line.Complete (line : Line) : Prop where
  valid : validate line.text = .valid
  stays : Repl.asksToLeave line.text = false

/-- A complete line is answered at once, from the same session and with the same changes to it. -/
theorem Repl.feed_of_complete (complete : line.Complete) (joined : edited line.text = line.text)
    (depth : Nat) (session : Session) (settings : Settings) :
    (feed edited depth ⟨session, settings, [], false⟩ line).1 =
        ⟨(LineDriver.feed depth session line).1, settings, [], false⟩ ∧
      Alike settings.prompt (LineDriver.feed depth session line).2
        (feed edited depth ⟨session, settings, [], false⟩ line).2 := by
  have fed : feed edited depth ⟨session, settings, [], false⟩ line =
      answer depth ⟨session, settings, [], false⟩ line.text := by
    simp [feed, joined, complete.valid]
  rw [fed, answer, complete.stays]
  exact ⟨rfl, Reply.alike _ _ _ _ _ _ _⟩

/-- Let every line of an input be complete by itself, and let the line editor pass each of them on as it
stands, so that a read is nothing but its lines joined. Then each line is answered at once: after the
prompt, the interactive console shows for it what the plain console shows, and reports an error just if
that one does. -/
theorem consoles_answer_alike (depth : Nat) (settled : Settings.ofVariables valueOf = .ok settings)
    (edited : List Char → List Char)
    (joined : ∀ line ∈ Line.ofInput input, edited line.text = line.text)
    (each : ∀ line ∈ Line.ofInput input,
      validate line.text = .valid ∧ Repl.asksToLeave line.text = false) :
    Repl.run edited depth valueOf input = Transcript.ofEmissions 0
      (.out Repl.banner :: .out settings.prompt ::
        (answers (Repl.feed edited depth) (Repl.start settings).1 (Line.ofInput input)).flatten) ∧
    LineDriver.run depth input = Transcript.ofEmissions 0
      (answers (LineDriver.feed depth) Session.initial (Line.ofInput input)).flatten ∧
    List.Forall₂ (Alike settings.prompt)
      (answers (LineDriver.feed depth) Session.initial (Line.ofInput input))
      (answers (Repl.feed edited depth) (Repl.start settings).1 (Line.ofInput input)) := by
  refine ⟨?_, ?_, ?_⟩
  · rw [Repl.run, settled, ← Repl.feedAll_eq_answers]
    rfl
  · rw [LineDriver.run, LineDriver.feedAll_eq_answers]
  · have fine : ∀ line ∈ Line.ofInput input, line.Complete ∧ edited line.text = line.text :=
      fun line member => ⟨⟨(each line member).1, (each line member).2⟩, joined line member⟩
    refine answers_in_step (fun session repl => repl = ⟨session, settings, [], false⟩) ?_ fine rfl
    rintro session _ line ⟨complete, joined⟩ rfl
    exact Repl.feed_of_complete complete joined depth session settings

/-- A line that writes, a comment, an empty line, one that fails, and one without an end. -/
theorem consoles_answer_alike_lines :
    (∀ line ∈ Line.ofInput "(prn 1)\r\n; 2\n\nx\n7",
      validate line.text = .valid ∧ Repl.asksToLeave line.text = false) ∧
    List.Forall₂ (Alike "user> ")
      (answers (LineDriver.feed 3) Session.initial (Line.ofInput "(prn 1)\r\n; 2\n\nx\n7"))
      (answers (Repl.feed id 3) (Repl.start Settings.standard).1
        (Line.ofInput "(prn 1)\r\n; 2\n\nx\n7")) := by
  have settled : Settings.ofVariables (fun _ => none) = .ok Settings.standard := rfl
  have each : ∀ line ∈ Line.ofInput "(prn 1)\r\n; 2\n\nx\n7",
      validate line.text = .valid ∧ Repl.asksToLeave line.text = false := by decide
  obtain ⟨-, -, alike⟩ := consoles_answer_alike 3 settled id (fun _ _ => rfl) each
  exact ⟨each, alike⟩

end MiniLisp
