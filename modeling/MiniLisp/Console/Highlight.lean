import MiniLisp.Console.Mode
import MiniLisp.Token.Basic

/-! The colours of a line: strings, comments, brackets that do not match, and the pair of brackets
at the cursor. The line is cut into segments, which together spell it unchanged.

A closing bracket can change the colour of the bracket that it closes. Among segments this is another
colour for one of them; in the painted text it is a replacement in place, which moves all that follows. -/

namespace MiniLisp

/-- The colour of a segment. -/
inductive Paint where
  | plain
  | string
  | comment
  /-- The closing bracket of the pair at the cursor. -/
  | paired
  /-- The opening bracket of the pair at the cursor. -/
  | pairedOpening
  /-- A closing bracket that does not match. -/
  | mismatched
  /-- The opening bracket that it would have to match. -/
  | mismatchedOpening
deriving DecidableEq, Repr, Inhabited

/-- The terminal code of a colour. -/
def Paint.code? : Paint → Option String
  | plain => none
  | string => some "32"
  | comment => some "90"
  | paired => some "34"
  | pairedOpening => some "1;34"
  | mismatched => some "31"
  | mismatchedOpening => some "1;31"

/-- A part of a line in one colour. -/
structure Segment where
  text : List Char
  paint : Paint
deriving DecidableEq, Repr, Inhabited

/-- A segment with the escapes that switch its colour on and off. -/
def Segment.render (segment : Segment) : String :=
  match segment.paint.code? with
  | none => String.ofList segment.text
  | some code => "\x1b[" ++ code ++ "m" ++ String.ofList segment.text ++ "\x1b[0m"

/-- An open bracket: its offset in the line and its place in what is painted. -/
structure OpenBracket where
  bracket : Bracket
  offset : Nat
  place : Nat
deriving DecidableEq, Repr, Inhabited

/-- A closing bracket at an offset: its own colour, and the colour of the innermost open bracket
(`MalispHighlighter.highlight`, at a closing bracket). A pair is coloured if the cursor stands right
behind one of its brackets. -/
def closingPaints (cursor offset : Nat) (bracket : Bracket) :
    Option OpenBracket → Paint × Paint
  | none => (.mismatched, .plain)
  | some opening =>
    if opening.bracket = bracket then
      if cursor = opening.offset + 1 ∨ cursor = offset + 1 then (.paired, .pairedOpening)
      else (.plain, .plain)
    else (.mismatched, .mismatchedOpening)

/-- Gives the segment at a place another colour. -/
def repaint (segments : Array Segment) (place : Nat) (paint : Paint) : Array Segment :=
  segments.modify place fun segment => { segment with paint := paint }

/-- Adds the segments for the rest of a line. A comment is one segment up to the end of the line;
every other character is a segment of its own. -/
def paintFrom (cursor offset : Nat) (mode : Mode) (opened : List OpenBracket)
    (segments : Array Segment) : List Char → Array Segment
  | [] => segments
  | c :: rest =>
    let following := offset + c.utf8Size
    let next := mode.after (fun _ => false) c
    if mode.inString || c = '\x22' then
      paintFrom cursor following next opened (segments.push ⟨[c], .string⟩) rest
    else if c = ';' then segments.push ⟨c :: rest, .comment⟩
    else
      match Bracket.ofOpen? c, Bracket.ofClose? c with
      | some bracket, _ =>
        paintFrom cursor following next (⟨bracket, offset, segments.size⟩ :: opened)
          (segments.push ⟨[c], .plain⟩) rest
      | none, some bracket =>
        let (own, other) := closingPaints cursor offset bracket opened.head?
        match opened with
        | [] => paintFrom cursor following next [] (segments.push ⟨[c], own⟩) rest
        | opening :: outer =>
          paintFrom cursor following next outer
            (repaint (segments.push ⟨[c], own⟩) opening.place other) rest
      | none, none =>
        paintFrom cursor following next opened (segments.push ⟨[c], .plain⟩) rest

/-- The segments of a line with the cursor at an offset. -/
def segmentsOf (line : List Char) (cursor : Nat) : List Segment :=
  (paintFrom cursor 0 .code [] #[] line).toList

/-! ### Painting in place -/

/-- The start of a line with its colours. The place of an open bracket is its byte offset in the painted
text, where escapes stand between the characters. -/
structure Painting where
  painted : List Char
  /-- The brackets that are open, the innermost first. -/
  opened : List OpenBracket
  /-- Where the scan of the line stands. -/
  mode : Mode
  /-- The number of bytes of the line that are painted. -/
  offset : Nat
deriving DecidableEq, Repr, Inhabited

namespace Painting

/-- Nothing is painted yet. -/
def start : Painting := ⟨[], [], .code, 0⟩

/-- The scan goes on behind a character, which starts no comment. -/
def move (painting : Painting) (c : Char) : Painting :=
  { painting with
    mode := painting.mode.after (fun _ => false) c
    offset := painting.offset + c.utf8Size }

/-- Adds a segment at the end. -/
def push (painting : Painting) (segment : Segment) : Painting :=
  { painting with painted := painting.painted ++ segment.render.toList }

/-- Replaces as many bytes as an opening bracket takes, from its place on, by the bracket in another
colour (`MalispHighlighter.highlight`). This fails if they are not some whole characters. -/
def repaint? (painting : Painting) (opening : OpenBracket) (paint : Paint) : Option Painting := do
  let span : Span := ⟨opening.place, opening.place + opening.bracket.openChar.utf8Size⟩
  let segment : Segment := ⟨[opening.bracket.openChar], paint⟩
  let painted ← span.replace? painting.painted segment.render.toList
  some { painting with painted := painted }

/-- Paints the next character, which starts no comment (`MalispHighlighter.highlight`, one round of the
loop). A closing bracket is painted first, and then the opening bracket that it is compared with may be
replaced. -/
def next? (cursor : Nat) (painting : Painting) (c : Char) : Option Painting :=
  let moved := painting.move c
  if painting.mode.inString || c = '\x22' then some (moved.push ⟨[c], .string⟩)
  else
    match Bracket.ofOpen? c, Bracket.ofClose? c with
    | some bracket, _ =>
      let opening : OpenBracket := ⟨bracket, painting.offset, byteLength painting.painted⟩
      some { moved.push ⟨[c], .plain⟩ with opened := opening :: painting.opened }
    | none, some bracket =>
      let (own, other) := closingPaints cursor painting.offset bracket painting.opened.head?
      match painting.opened with
      | [] => some (moved.push ⟨[c], own⟩)
      | opening :: outer =>
        let closed : Painting := { moved.push ⟨[c], own⟩ with opened := outer }
        if other = .plain then some closed else closed.repaint? opening other
    | none, none => some (moved.push ⟨[c], .plain⟩)

/-- Paints the rest of a line, and a comment as a whole (`MalispHighlighter.highlight`, the loop). -/
def finish? (cursor : Nat) (painting : Painting) : List Char → Option Painting
  | [] => some painting
  | c :: rest =>
    if !painting.mode.inString && c = ';' then some (painting.push ⟨c :: rest, .comment⟩)
    else painting.next? cursor c >>= fun next => next.finish? cursor rest

end Painting

/-- A line with its colours, if every replacement hits a character (`MalispHighlighter.highlight`). -/
def highlight? (line : String) (cursor : Nat) : Option String :=
  (fun painting => String.ofList painting.painted) <$> Painting.start.finish? cursor line.toList

/-- A line with its colours. -/
def highlight (line : String) (cursor : Nat) : String := (highlight? line cursor).getD ""

end MiniLisp
