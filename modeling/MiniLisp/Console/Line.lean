/-! Lines of input. A line ends with a line feed, before which a carriage return belongs to the
ending; the last line may lack one. -/

namespace MiniLisp

/-- A line and the characters that end it. -/
structure Line where
  text : List Char
  ending : List Char
deriving DecidableEq, Repr, Inhabited

/-- The text cut after every line feed. -/
def cutAfterFeeds : List Char → List (List Char)
  | [] => []
  | c :: rest =>
    if c = '\n' then [c] :: cutAfterFeeds rest
    else
      match cutAfterFeeds rest with
      | [] => [[c]]
      | first :: others => (c :: first) :: others

/-- The line of a text that holds at most one line feed, at its end. -/
def Line.ofText (text : List Char) : Line :=
  match text.reverse with
  | '\n' :: '\r' :: before => ⟨before.reverse, ['\r', '\n']⟩
  | '\n' :: before => ⟨before.reverse, ['\n']⟩
  | _ => ⟨text, []⟩

/-- The lines of an input. -/
def Line.ofInput (input : String) : List Line := (cutAfterFeeds input.toList).map Line.ofText

end MiniLisp
