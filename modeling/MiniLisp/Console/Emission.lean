import MiniLisp.Session

/-! What a console shows: results and written texts on one channel, errors and notices on
another. -/

namespace MiniLisp

/-- Something shown. -/
inductive Emission where
  | out (text : String)
  /-- A line about an error. -/
  | err (line : String)
  /-- A notice among the errors, which ends no line. -/
  | notice (text : String)
deriving DecidableEq, Repr, Inhabited

/-- The results and the errors that a run of a console showed, and its exit code. -/
structure Transcript where
  code : Nat
  stdout : String
  errors : List String
deriving DecidableEq, Repr, Inhabited

/-- The transcript of a run that showed the given things. -/
def Transcript.ofEmissions (code : Nat) (emissions : List Emission) : Transcript where
  code := code
  stdout := String.join (emissions.filterMap fun
    | .out text => some text
    | .err _ | .notice _ => none)
  errors := emissions.filterMap fun
    | .err line => some line
    | .out _ | .notice _ => none

/-- The line about an error. -/
def errorLine (message : String) : String := "Error: " ++ message

/-- The message of a line whose evaluation went too deep. -/
def depthMessage : String := "evaluation is nested too deeply"

/-- What is shown for a line: first what it wrote, then its result, if it has one. The wordings of
the errors are given. -/
def Reply.emissions (written : String) (reply : Reply) (unreadText : ReadError → String)
    (failedText : EvalError → String) : List Emission :=
  .out written ::
    match reply with
    | printed text => [.out (text ++ "\n")]
    | nothing => []
    | unread error => [.err (errorLine (unreadText error))]
    | failed error => [.err (errorLine (failedText error))]
    | exhausted => [.err (errorLine depthMessage)]

end MiniLisp
