import MiniLisp.Console.Emission
import MiniLisp.Console.Line
import MiniLisp.Console.Settings
import MiniLisp.Console.Validator
import MiniLisp.Report
import MiniLisp.Text.Blank

/-! The interactive console. A read takes lines until its brackets and strings are closed, with the
line breaks between them. What the line editor makes of the text typed so far, such as taking back
characters at a backspace, is a parameter. Errors are reported by their headlines. -/

namespace MiniLisp

/-- The state of the console between two lines. -/
structure Repl where
  session : Session
  settings : Settings
  /-- The text of the current read so far. -/
  pending : List Char
  /-- Whether the user has left. -/
  closed : Bool

namespace Repl

/-- The lines that greet the user. -/
def banner : String := "malisp REPL v0.1.0\nType 'exit' or press Ctrl-D to quit.\n"

/-- Whether a text asks to leave: the word exit in any case, with blanks around it or not. -/
def asksToLeave (text : List Char) : Bool := (trimBlanks text).map Char.toLower == "exit".toList

/-- A console that has greeted the user and awaits the first read. -/
def start (settings : Settings) : Repl × List Emission :=
  (⟨Session.initial, settings, [], false⟩, [.out banner, .out settings.prompt])

/-- Answers a read that is complete and prompts for the next one, unless the user leaves (`main`, one
round of the loop). -/
def answer (depth : Nat) (repl : Repl) (text : List Char) : Repl × List Emission :=
  if asksToLeave text then ({ repl with pending := [], closed := true }, [])
  else
    let line := String.ofList text
    let (session, reply) := repl.session.cleared.rep depth line
    let emissions := reply.emissions session.store.written
      (fun error => (error.report line).headline) (fun error => error.report.headline)
    ({ repl with session := session, pending := [] },
      emissions ++ [.out repl.settings.prompt])

section
variable (edited : List Char → List Char)

/-- Takes one line, as the line editor passes it on behind the text of the read so far. A text that can
never be completed is pointed out, and the next line follows it directly. -/
def feed (depth : Nat) (repl : Repl) (line : Line) : Repl × List Emission :=
  if repl.closed then (repl, [])
  else
    let text := edited (repl.pending ++ line.text)
    match validate text with
    | .valid => answer depth repl text
    | .incomplete => ({ repl with pending := text ++ line.ending }, [])
    | .unmatched bracket offset =>
      ({ repl with pending := text }, [.notice (unmatchedNotice bracket offset)])

/-- Takes the lines of an input one after the other. A read that is not complete when the input ends
is dropped. -/
def feedAll (depth : Nat) (repl : Repl) : List Line → List Emission
  | [] => []
  | line :: lines =>
    let (repl, emissions) := feed edited depth repl line
    emissions ++ feedAll depth repl lines

end

/-- What is said about settings that cannot be used. -/
def refusal (error : UnknownEditMode) : String := "malisp: " ++ error.message

/-- The run of the console on an input, under some variables (`main` of the interactive console). -/
def run (edited : List Char → List Char) (depth : Nat) (valueOf : String → Option String)
    (input : String) : Transcript :=
  match Settings.ofVariables valueOf with
  | .error error => Transcript.ofEmissions 2 [.err (refusal error)]
  | .ok settings =>
    let (repl, greeting) := start settings
    Transcript.ofEmissions 0 (greeting ++ feedAll edited depth repl (Line.ofInput input))

end Repl

end MiniLisp
