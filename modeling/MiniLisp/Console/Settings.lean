import MiniLisp.Text.Shown

/-! Settings of the interactive console, and how environment variables change them. -/

namespace MiniLisp

/-- The two styles of line editing (`EditMode`). -/
inductive EditMode where
  | vi
  | emacs
deriving DecidableEq, Repr, Inhabited

namespace EditMode

/-- The spelling of an edit mode in a setting. -/
def name : EditMode → String
  | vi => "vi"
  | emacs => "emacs"

/-- The edit mode of a spelling, in which the case of ASCII letters is free (`EditMode.parse`). -/
def ofName? (text : String) : Option EditMode :=
  let lower := text.map Char.toLower
  if lower = vi.name then some vi else if lower = emacs.name then some emacs else none

/-- How an edit mode is shown in the log. -/
def display : EditMode → String
  | vi => "Vi"
  | emacs => "Emacs"

end EditMode

/-- The settings of the console (`ReplConfig`). -/
structure Settings where
  prompt : String
  historyFile : String
  editMode : EditMode
deriving DecidableEq, Repr, Inhabited

/-- A setting that names no edit mode (`ConfigError`). -/
structure UnknownEditMode where
  found : String
deriving DecidableEq, Repr, Inhabited

/-- The wording of the error. -/
def UnknownEditMode.message (error : UnknownEditMode) : String :=
  "unknown edit mode '" ++ error.found ++ "', expected 'vi' or 'emacs'"

namespace Settings

/-- The settings if no variable is set (`ReplConfig.default`). -/
def standard : Settings := ⟨"user> ", "malisp_history.txt", .vi⟩

/-- The variable that sets the prompt. -/
def promptVariable : String := "MALISP_PROMPT"

/-- The variable that sets the history file. -/
def historyVariable : String := "MALISP_HISTORY"

/-- The variable that sets the edit mode. -/
def editModeVariable : String := "MALISP_EDIT_MODE"

/-- The settings under some variables (`ReplConfig.from_lookup`). A variable that is not set leaves its
setting as it is. -/
def ofVariables (valueOf : String → Option String) : Except UnknownEditMode Settings :=
  let prompt := (valueOf promptVariable).getD standard.prompt
  let historyFile := (valueOf historyVariable).getD standard.historyFile
  match valueOf editModeVariable with
  | none => .ok ⟨prompt, historyFile, standard.editMode⟩
  | some text =>
    match EditMode.ofName? text with
    | some mode => .ok ⟨prompt, historyFile, mode⟩
    | none => .error ⟨text⟩

/-- The line of the log that shows the settings. -/
def logLine (settings : Settings) : String :=
  "DEBUG loaded ReplConfig \x7b prompt: " ++ shown settings.prompt ++ ", history_file: " ++
    shown settings.historyFile ++ ", edit_mode: " ++ settings.editMode.display ++ " \x7d"

end Settings

end MiniLisp
