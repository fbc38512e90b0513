import MiniLisp.Text.Literal
import MiniLisp.Value.Basic

/-! The printed form of a value. A list, a vector or a map stands in its brackets, its parts
separated by single spaces; a string is written as a literal. A chain of pairs is written like a
list, with a dot before an end that is neither nil nor a list. -/

namespace MiniLisp

/-- The texts with a space between neighbours (`write_joined`). -/
def joinSpaced : List (List Char) → List Char
  | [] => []
  | [text] => text
  | text :: texts => text ++ ' ' :: joinSpaced texts

/-- Where a value is written: on its own, or after the first parts of a chain of pairs, as its
second part. -/
inductive Place where
  | alone
  | tail
deriving DecidableEq, Repr

/-- A text that stands for a value as a whole. At the end of a chain of pairs it follows a dot. -/
def Place.put : Place → List Char → List Char
  | .alone, text => text
  | .tail, text => ' ' :: '.' :: ' ' :: text

namespace Value

mutual

/-- The printed form of a value at a place. -/
def write (place : Place) : Value → List Char
  | nil =>
    match place with
    | .alone => ['n', 'i', 'l']
    | .tail => []
  | bool b => place.put (if b then ['t', 'r', 'u', 'e'] else ['f', 'a', 'l', 's', 'e'])
  | num n => place.put (toString n.toInt).toList
  | str text => place.put (encodeLiteral text.toList)
  | sym symbol => place.put symbol.name.toList
  | pair car cdr =>
    match place with
    | .alone => '(' :: (write .alone car ++ write .tail cdr ++ [')'])
    | .tail => ' ' :: (write .alone car ++ write .tail cdr)
  | list items =>
    match place with
    | .alone => '(' :: (joinSpaced (writeAll items) ++ [')'])
    | .tail => (writeAll items).flatMap (' ' :: ·)
  | vec items => place.put ('[' :: (joinSpaced (writeAll items) ++ [']']))
  | map _ entries => place.put ('\x7b' :: (joinSpaced (writeEntries entries) ++ ['\x7d']))
  | prim primitive => place.put ("#<primitive:".toList ++ primitive.name.toList ++ ['>'])
  | closure _ _ _ _ => place.put "#<function>".toList

/-- The printed forms of some values. -/
def writeAll : List Value → List (List Char)
  | [] => []
  | item :: items => write .alone item :: writeAll items

/-- The printed forms of the keys and values of some entries, in turn. -/
def writeEntries : List (Value × Value) → List (List Char)
  | [] => []
  | (key, value) :: entries => write .alone key :: write .alone value :: writeEntries entries

end

/-- The printed form of a value (`pr_str`). -/
def print (value : Value) : String := String.ofList (write .alone value)

/-- The line that shows some values: their printed forms with spaces between them, then the end of the
line (`write_prn`). -/
def printLine (values : List Value) : String :=
  String.ofList (joinSpaced (writeAll values) ++ ['\n'])

/-- The printed form in angle brackets after the name of the kind of the value. -/
def describe (value : Value) : String := value.typeName ++ "<" ++ value.print ++ ">"

theorem writeAll_eq_map (items : List Value) : writeAll items = items.map (write .alone) := by
  induction items with
  | nil => rfl
  | cons item items ih => simp [writeAll, ih]

end Value

end MiniLisp
