import MiniLisp.Proofs.Console.Turns
import MiniLisp.Proofs.Session.WholeLines

/-! The lines that the plain console shows. Every result is one line, and every call of prn writes one,
so the lines on the channel for results can be counted without looking at them. -/

namespace MiniLisp

/-! ### Texts that are made of lines -/

theorem cutAfterFeeds_line (clean : '\n' ∉ line) (rest : List Char) :
    cutAfterFeeds (line ++ '\n' :: rest) = (line ++ ['\n']) :: cutAfterFeeds rest := by
  induction line with
  | nil => rfl
  | cons c line ih =>
    rw [List.mem_cons, not_or] at clean
    rw [List.cons_append, cutAfterFeeds, if_neg (Ne.symm clean.1), ih clean.2]
    rfl

/-- Whole lines that were put together are cut apart again. -/
theorem cutAfterFeeds_flatten {lines : List (List Char)} (each : ∀ line ∈ lines, IsLine line) :
    cutAfterFeeds lines.flatten = lines := by
  induction lines with
  | nil => rfl
  | cons line lines ih =>
    rw [List.forall_mem_cons] at each
    obtain ⟨⟨text, clean, rfl⟩, others⟩ := each
    rw [List.flatten_cons, List.append_assoc, List.singleton_append, cutAfterFeeds_line clean,
      ih others]

/-! ### The lines of a turn -/

/-- Whether a result was printed. -/
def Reply.isPrinted : Reply → Bool
  | printed _ => true
  | _ => false

/-- The line that shows a result, if there is one. -/
def Reply.lines : Reply → List (List Char)
  | printed text => [text.toList ++ ['\n']]
  | _ => []

theorem Reply.isLine_of_mem_lines {reply : Reply}
    (clean : ∀ text, reply = .printed text → '\n' ∉ text.toList) :
    ∀ line ∈ reply.lines, IsLine line := by
  cases reply with
  | printed text => exact List.forall_mem_singleton.2 ⟨_, clean text rfl, rfl⟩
  | _ => exact nofun

theorem Reply.length_lines (reply : Reply) :
    reply.lines.length = if reply.isPrinted then 1 else 0 := by
  cases reply <;> rfl

namespace Turn

/-- How many calls of prn there were. -/
def writes (turn : Turn) : Nat := turn.store.log.countP Event.writes

/-- The lines that were written, and that of the result. -/
def lines (turn : Turn) : List (List Char) :=
  turn.store.output.toList.map String.toList ++ turn.reply.lines

/-- What a turn shows in whole lines. -/
structure Whole (turn : Turn) : Prop where
  lines : ∀ line ∈ turn.lines, IsLine line
  counted : turn.lines.length = turn.writes + if turn.reply.isPrinted then 1 else 0

/-- A turn after which the session is tidy, and whose result has no line feed, is shown in lines. -/
theorem whole {turn : Turn} (tidy : turn.store.Tidy .working)
    (clean : ∀ text, turn.reply = .printed text → '\n' ∉ text.toList) : turn.Whole := by
  have written : turn.store.output.size = turn.writes := tidy.counted rfl
  refine ⟨?_, ?_⟩
  · rw [lines, List.forall_mem_append, List.forall_mem_map]
    refine ⟨fun text member => ?_, Reply.isLine_of_mem_lines clean⟩
    exact tidy.lines text (Array.mem_toList_iff.1 member)
  · rw [lines, List.length_append, List.length_map, Array.length_toList, written,
      Reply.length_lines]

end Turn

theorem length_flatMap_lines {turns : List Turn} (each : ∀ turn ∈ turns, turn.Whole) :
    (turns.flatMap Turn.lines).length =
      turns.countP (fun turn => turn.reply.isPrinted) + (turns.map Turn.writes).sum := by
  induction turns with
  | nil => rfl
  | cons turn turns ih =>
    rw [List.forall_mem_cons] at each
    rw [List.flatMap_cons, List.length_append, each.1.counted, ih each.2, List.countP_cons,
      List.map_cons, List.sum_cons]
    omega

/-! ### What is shown on the channel for results -/

theorem Turn.result_emissions (turn : Turn) (unreadText : ReadError → String)
    (failedText : EvalError → String) :
    (turn.emissions unreadText failedText).flatMap Emission.result = turn.lines.flatten := by
  have written : turn.store.written.toList =
      (turn.store.output.toList.map String.toList).flatten := by
    rw [Store.written, String.toList_join, List.flatMap_def]
  rw [lines, List.flatten_append, ← written]
  cases reply : turn.reply <;>
    simp [emissions, Reply.emissions, reply, Reply.lines, Emission.result]

theorem LineDriver.toList_stdout (depth : Nat) (input : String) :
    (run depth input).stdout.toList = ((turns depth input).flatMap Turn.lines).flatten := by
  rw [run, Transcript.toList_stdout, feedAll_eq_turns]
  change ((turns depth input).flatMap _).flatMap Emission.result = _
  induction turns depth input with
  | nil => rfl
  | cons turn turns ih =>
    rw [List.flatMap_cons, List.flatMap_append, ih, turn.result_emissions, List.flatMap_cons,
      List.flatten_append]

theorem LineDriver.turns_whole (depth : Nat) (input : String) :
    ∀ turn ∈ turns depth input, turn.Whole := by
  refine Session.forall_mem_turns (fun session => session.store.Tidy .working) ?_
    (.initial .working) _
  intro session text tidy
  obtain ⟨kept, clean⟩ := Session.rep_tidy session.cleared tidy.cleared depth text
  exact ⟨kept, Turn.whole kept clean⟩

/-- Whatever lines a session is given, its results have no line feeds in them, and on a working device
every call of prn writes one text, whose only line feed is at its end; no text is written besides. So
the plain console shows as many lines as there were results and calls of prn. -/
theorem output_is_whole_lines (depth : Nat) :
    (∀ device lines,
      (∀ answer ∈ (Session.run depth ⟨Store.initial.onDevice device, 0⟩ lines).2, ∀ text,
        answer.2 = .printed text → '\n' ∉ text.toList) ∧
      (∀ text ∈ (Session.run depth ⟨Store.initial.onDevice device, 0⟩ lines).1.store.output,
        IsLine text.toList) ∧
      (device = .working →
        (Session.run depth ⟨Store.initial.onDevice device, 0⟩ lines).1.store.output.size =
          (Session.run depth ⟨Store.initial.onDevice device, 0⟩ lines).1.store.log.countP
            Event.writes)) ∧
    ∀ input,
      (∀ line ∈ cutAfterFeeds (LineDriver.run depth input).stdout.toList, IsLine line) ∧
      (cutAfterFeeds (LineDriver.run depth input).stdout.toList).length =
        (LineDriver.turns depth input).countP (fun turn => turn.reply.isPrinted) +
          ((LineDriver.turns depth input).map Turn.writes).sum := by
  refine ⟨?_, ?_⟩
  · intro device lines
    obtain ⟨tidy, clean⟩ := Session.run_tidy ⟨_, 0⟩ (.initial device) depth lines
    exact ⟨clean, tidy.lines, tidy.counted⟩
  · intro input
    have whole := LineDriver.turns_whole depth input
    have each : ∀ line ∈ (LineDriver.turns depth input).flatMap Turn.lines, IsLine line := by
      intro line member
      obtain ⟨turn, held, inside⟩ := List.mem_flatMap.1 member
      exact (whole turn held).lines line inside
    rw [LineDriver.toList_stdout, cutAfterFeeds_flatten each]
    exact ⟨each, length_flatMap_lines whole⟩

end MiniLisp
