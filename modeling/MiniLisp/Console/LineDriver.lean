import MiniLisp.Console.Emission
import MiniLisp.Console.Line

/-! The plain console: every line of the input is one text, and errors are reported by their
messages. -/

namespace MiniLisp.LineDriver

/-- Answers one line. -/
def feed (depth : Nat) (session : Session) (line : Line) : Session × List Emission :=
  let (session, reply) := session.cleared.rep depth (String.ofList line.text)
  (session, reply.emissions session.store.written ReadError.message EvalError.message)

/-- Answers the lines of an input one after the other. -/
def feedAll (depth : Nat) (session : Session) : List Line → List Emission
  | [] => []
  | line :: lines =>
    let (session, emissions) := feed depth session line
    emissions ++ feedAll depth session lines

/-- The run of the console on an input (`main` of the plain console). -/
def run (depth : Nat) (input : String) : Transcript :=
  Transcript.ofEmissions 0 (feedAll depth Session.initial (Line.ofInput input))

end MiniLisp.LineDriver
