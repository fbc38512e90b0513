import MiniLisp.Reader.Frame

/-! Reading forms. A text holds exactly one form; a sequence of tokens may hold any number, which
are read one after the other up to the first error. -/

namespace MiniLisp

/-- A form, the tokens after it, and the number for the next map literal. -/
structure Reading where
  value : Value
  after : List Token
  literals : Nat

/-- The form that the tokens complete (`Parser.parse_expr`, with the calls that are open as a stack). -/
def resume (stop literals : Nat) : List Frame → List Token → Except ReadError Reading
  | frames, [] => .error (endError stop frames)
  | frames, token :: tokens =>
    match readToken stop literals frames token with
    | .error error => .error error
    | .ok ⟨.done value, literals⟩ => .ok ⟨value, tokens, literals⟩
    | .ok ⟨.pending frames, literals⟩ => resume stop literals frames tokens

/-- The form at the start of the tokens (`Parser.parse_expr`). -/
def readForm (stop literals : Nat) (tokens : List Token) : Except ReadError Reading :=
  resume stop literals [] tokens

theorem resume_length {stop literals : Nat} {frames : List Frame} {tokens : List Token}
    {reading : Reading} (h : resume stop literals frames tokens = .ok reading) :
    reading.after.length < tokens.length := by
  fun_induction resume stop literals frames tokens with
  | case1 => cases h
  | case2 => cases h
  | case3 => cases h; simp
  | case4 _ _ _ _ _ _ _ ih =>
    have := ih h
    simp
    omega

/-- The end of the last token, which stands for the end of the text (`Parser.new`). -/
def endOffset (tokens : List Token) : Nat :=
  match tokens.getLast? with
  | some token => token.span.stop
  | none => 0

/-- The one form that makes up the tokens (`Parser.parse`). -/
def parse (literals : Nat) (tokens : List Token) : Except ReadError (Numbered Value) :=
  match readForm (endOffset tokens) literals tokens with
  | .error error => .error error
  | .ok ⟨value, [], literals⟩ => .ok ⟨value, literals⟩
  | .ok ⟨_, token :: _, _⟩ => .error (.unexpectedToken token .endOfInput)

/-- The one form of a text (`read_str`). The number given is for its first map literal. -/
def read (literals : Nat) (text : String) : Except ReadError (Numbered Value) :=
  match tokenize text with
  | .error error => .error (.lexical error)
  | .ok [] => .error .empty
  | .ok tokens => parse literals tokens

/-- The forms at the start of the tokens, up to and including the first error (`Parser.parse_expr`). -/
def readForms (stop literals : Nat) (tokens : List Token) : List (Except ReadError Value) :=
  match _found : readForm stop literals tokens with
  | .error error => [.error error]
  | .ok reading => .ok reading.value :: readForms stop reading.literals reading.after
termination_by tokens.length
decreasing_by exact resume_length _found

/-- The forms of a text one after the other, up to and including the first error (`Parser.parse_expr`).
The end of the text is an error here. -/
def readAll (text : String) : Except LexicalError (List (Except ReadError Value)) :=
  (fun tokens => readForms (endOffset tokens) 0 tokens) <$> tokenize text

end MiniLisp
