import MiniLisp.Names

/-! The forms that decide by themselves which of their operands are evaluated, and when. Their names
are not looked up. -/

namespace MiniLisp

/-- The special forms (`SPECIAL_FORMS`). -/
inductive SpecialForm where
  | define
  | letIn
  | sequence
  | choice
  | lambda
  | quote
deriving DecidableEq, Repr, Inhabited

namespace SpecialForm

/-- The symbol at the head of the form. -/
def name : SpecialForm → String
  | define => "def!"
  | letIn => "let*"
  | sequence => "do"
  | choice => "if"
  | lambda => "fn*"
  | quote => "quote"

/-- Every special form. -/
def all : List SpecialForm := [define, letIn, sequence, choice, lambda, quote]

theorem mem_all (form : SpecialForm) : form ∈ all := by cases form <;> decide

/-- The special form of a name (`special_form`). -/
def ofName? (name : String) : Option SpecialForm := all.find? fun form => form.name == name

/-- The names of the special forms in rising order (`special_form_identifiers`). -/
def names : List String := Names.sort (all.map name)

end SpecialForm

end MiniLisp
