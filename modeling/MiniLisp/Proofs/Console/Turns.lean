import MiniLisp.Console.LineDriver

/-! What a console does, line by line and turn by turn. In each turn one text is given to the session,
which was cleared before, and what it wrote and answered is shown. All texts go to one session, so a turn
depends on the texts of those before it and on nothing else. -/

namespace MiniLisp

/-! ### What is shown on the channel for results -/

/-- What something shown adds to the channel for results. -/
def Emission.result : Emission → List Char
  | out text => text.toList
  | err _ => []
  | notice _ => []

theorem Transcript.toList_stdout (code : Nat) (emissions : List Emission) :
    (ofEmissions code emissions).stdout.toList = emissions.flatMap Emission.result := by
  rw [ofEmissions, String.toList_join]
  induction emissions with
  | nil => rfl
  | cons emission emissions ih =>
    rw [List.flatMap_cons, ← ih]
    cases emission <;> rfl

/-! ### Turns -/

/-- A turn: a text, the answer to it, and the state afterwards, in which only what the text wrote and
noted stands. -/
structure Turn where
  text : String
  store : Store
  reply : Reply

namespace Turn

/-- What is shown in a turn, with the given wordings of the errors. -/
def emissions (turn : Turn) (unreadText : ReadError → String) (failedText : EvalError → String) :
    List Emission :=
  turn.reply.emissions turn.store.written unreadText failedText

end Turn

namespace Session

/-- The turns of a session in which texts are given to it one after the other. -/
def turns (depth : Nat) (session : Session) : List String → List Turn
  | [] => []
  | text :: texts =>
    let (next, reply) := session.cleared.rep depth text
    ⟨text, next.store, reply⟩ :: turns depth next texts

/-- What every line keeps up holds in every turn, if it held at the start. -/
theorem forall_mem_turns {depth : Nat} (fit : Session → Prop) {good : Turn → Prop}
    (kept : ∀ session text, fit session → fit (session.cleared.rep depth text).1 ∧
      good ⟨text, (session.cleared.rep depth text).1.store, (session.cleared.rep depth text).2⟩)
    {session : Session} (start : fit session) (texts : List String) :
    ∀ turn ∈ session.turns depth texts, good turn := by
  induction texts generalizing session with
  | nil => exact nofun
  | cons text texts ih =>
    obtain ⟨further, here⟩ := kept session text start
    exact List.forall_mem_cons.2 ⟨here, ih further⟩

end Session

namespace LineDriver

/-- The text of a line, as the plain console takes it. -/
def textOf (line : Line) : String := String.ofList line.text

/-- The plain console shows its turns one after the other. -/
theorem feedAll_eq_turns (depth : Nat) (session : Session) (lines : List Line) :
    feedAll depth session lines = (session.turns depth (lines.map textOf)).flatMap fun turn =>
      turn.emissions ReadError.message EvalError.message := by
  induction lines generalizing session with
  | nil => rfl
  | cons line lines ih =>
    rw [feedAll, List.map_cons, Session.turns, List.flatMap_cons, ← ih]
    rfl

/-- The turns of the plain console on an input. -/
def turns (depth : Nat) (input : String) : List Turn :=
  Session.initial.turns depth ((Line.ofInput input).map textOf)

end LineDriver

end MiniLisp
