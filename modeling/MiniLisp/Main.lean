import MiniLisp.Console.LineDriver
import MiniLisp.Console.Repl
import MiniLisp.Terminal.Correction

/-! The program. Without arguments it answers the lines of its input one by one; with the argument
`repl` it is the interactive console. -/

namespace MiniLisp

/-- Shows what a console emits. -/
def present (emissions : List Emission) : IO Unit := do
  let stdout ← IO.getStdout
  let stderr ← IO.getStderr
  for emission in emissions do
    match emission with
    | .out text => stdout.putStr text
    | .err line => do
      stdout.flush
      stderr.putStrLn line
    | .notice text => do
      stdout.flush
      stderr.putStr text
  stdout.flush

/-- Feeds the lines of the input to a console until the input or the console ends. -/
partial def drive {σ : Type} (finished : σ → Bool) (feed : σ → Line → σ × List Emission)
    (state : σ) : IO Unit := do
  let text ← (← IO.getStdin).getLine
  if text.isEmpty then pure ()
  else
    let (state, emissions) := feed state (Line.ofText text.toList)
    present emissions
    if finished state then pure () else drive finished feed state

/-- Runs the plain console. -/
def runLines : IO UInt32 := do
  drive (fun _ => false) (LineDriver.feed Session.ampleDepth) Session.initial
  pure 0

/-- Runs the interactive console under the environment variables. Its line editor carries out backspaces. -/
def runRepl : IO UInt32 := do
  let settings ← [Settings.promptVariable, Settings.historyVariable,
    Settings.editModeVariable].mapM fun name => do pure (name, ← IO.getEnv name)
  match Settings.ofVariables fun name => (settings.lookup name).join with
  | .error error =>
    IO.eprintln (Repl.refusal error)
    pure 2
  | .ok settings =>
    let (repl, greeting) := Repl.start settings
    present greeting
    drive Repl.closed (Repl.feed corrected Session.ampleDepth) repl
    pure 0

end MiniLisp

/-- Chooses the console by the first argument. -/
def main (arguments : List String) : IO UInt32 :=
  match arguments with
  | "repl" :: _ => MiniLisp.runRepl
  | _ => MiniLisp.runLines
