import MiniLisp.Number
import MiniLisp.Reader.Error
import MiniLisp.Value.Entries

/-! The state of the reader between two tokens: what has been opened and still waits for forms, the
innermost first. A finished form is handed to the innermost of these and may finish it in turn. -/

namespace MiniLisp

/-- Something that waits for a form (`Parser.parse_sequence`, `Parser.parse_hash_map`,
`Parser.parse_reader_macro`, `Parser.parse_meta`). -/
inductive Frame where
  /-- An open bracket at an offset, with the forms read since, the last one first. -/
  | bracket (bracket : Bracket) (start : Nat) (items : List Value)
  /-- A shorthand before the form that it wraps. -/
  | shorthand (mark : Shorthand)
  /-- A caret before its map. -/
  | caret
  /-- The map after a caret, before the form that carries it. -/
  | metadata (map : Value)

/-- What becomes of the state after a token: the form is complete, or something still waits. -/
inductive Progress where
  | done (value : Value)
  | pending (frames : List Frame)

/-- Something the reader made, and the number for the next map literal. -/
structure Numbered (α : Type) where
  value : α
  literals : Nat

/-- The value of an atom: a constant, a number or else a symbol (`parse_atom`). -/
def atomValue (text : String) (span : Span) : Except ReadError Value :=
  if text = "true" then .ok (.bool true)
  else if text = "false" then .ok (.bool false)
  else if text = "nil" then .ok .nil
  else
    match Number.spelled? text.toList with
    | none => .ok (.sym ⟨text⟩)
    | some exact =>
      match Number.ofInt? exact with
      | some word => .ok (.num word)
      | none => .error (.invalidNumber text span)

/-- The value of a closed bracket (`Parser.parse_sequence`, `Parser.parse_hash_map`). A map literal keeps
every entry, since its keys are not evaluated yet, and takes the next number. The offsets are those of the
bracket and of the end of the text. -/
def bracketValue (literals : Nat) (bracket : Bracket) (start stop : Nat) (items : List Value) :
    Except ReadError (Numbered Value) :=
  match bracket with
  | .round => .ok ⟨.list items, literals⟩
  | .square => .ok ⟨.vec items, literals⟩
  | .curly =>
    match Entries.pairUp? items with
    | some entries => .ok ⟨.map (.literal literals) entries, literals + 1⟩
    | none => .error (.oddEntries ⟨start, stop⟩)

/-- Hands a finished form to the innermost thing that waits for it (`Parser.parse_sequence`,
`Parser.parse_reader_macro`, `Parser.parse_meta`). -/
def settle (value : Value) : List Frame → Progress
  | [] => .done value
  | .bracket bracket start items :: frames =>
    .pending (.bracket bracket start (value :: items) :: frames)
  | .shorthand mark :: frames => settle (.list [.sym ⟨mark.name⟩, value]) frames
  | .caret :: frames => .pending (.metadata value :: frames)
  | .metadata map :: frames => settle (.list [.sym ⟨"with-meta"⟩, value, map]) frames

/-- Takes one token (`Parser.parse_expr_with_token`). The offset `stop` is the end of the last token of the
text, where the spans of unfinished and odd brackets end. -/
def readToken (stop literals : Nat) (frames : List Frame) (token : Token) :
    Except ReadError (Numbered Progress) :=
  match frames, token.kind with
  | .caret :: _, .opening .curly =>
    .ok ⟨.pending (.bracket .curly token.span.start [] :: frames), literals⟩
  | .caret :: _, _ => .error (.unexpectedToken token .metadata)
  | _, .opening bracket => .ok ⟨.pending (.bracket bracket token.span.start [] :: frames), literals⟩
  | .bracket bracket start items :: outer, .closing closed =>
    if closed = bracket then
      (fun closed => ⟨settle closed.value outer, closed.literals⟩) <$>
        bracketValue literals bracket start stop items.reverse
    else .error (.unexpectedToken token .form)
  | _, .closing _ => .error (.unexpectedToken token .form)
  | _, .shorthand mark => .ok ⟨.pending (.shorthand mark :: frames), literals⟩
  | _, .caret => .ok ⟨.pending (.caret :: frames), literals⟩
  | _, .str text => .ok ⟨settle (.str text) frames, literals⟩
  | _, .atom text =>
    (fun value => ⟨settle value frames, literals⟩) <$> atomValue text token.span

/-- What a frame reports as missing if the text ends behind it. -/
def Frame.missing? : Frame → Option Expectation
  | bracket _ _ _ => none
  | shorthand mark => some (.formAfter mark)
  | caret => none
  | metadata _ => some .formAfterMetadata

/-- The error at the end of the text (`Parser.parse_expr`, `eof_after`). An innermost bracket is reported
as open. Otherwise the outermost shorthand or metadata names the form that is missing. -/
def endError (stop : Nat) (frames : List Frame) : ReadError :=
  match frames with
  | .bracket bracket start _ :: _ => .unterminated bracket ⟨start, stop⟩
  | _ =>
    match (frames.filterMap Frame.missing?).getLast?, frames with
    | some expected, _ => .unexpectedEnd expected
    | none, .caret :: _ => .unexpectedEnd .metadata
    | none, _ => .unexpectedEnd .form

end MiniLisp
