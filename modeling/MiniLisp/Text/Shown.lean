import MiniLisp.Text.Unseen

/-! The quoted form in which a string is shown to a person, with every character that the eye would
miss written out. It is a display form; the reader has its own form for string literals. -/

namespace MiniLisp

/-- The digits of a number in base sixteen, lower case, without leading zeros. -/
def hexDigits (n : Nat) : List Char := Nat.toDigits 16 n

/-- One character as shown between double quotes. Five characters have a short escape, an unseen
character is given by its number, and every other character stands for itself. -/
def shownChar (c : Char) : List Char :=
  if c = '\x22' then ['\\', '\x22']
  else if c = '\\' then ['\\', '\\']
  else if c = '\n' then ['\\', 'n']
  else if c = '\r' then ['\\', 'r']
  else if c = '\t' then ['\\', 't']
  else if c = '\x00' then ['\\', '0']
  else if isUnseen c then ['\\', 'u', '\x7b'] ++ hexDigits c.toNat ++ ['\x7d']
  else [c]

/-- A string in double quotes, each character as `shownChar` writes it. -/
def shown (text : String) : String :=
  String.ofList ('\x22' :: (text.toList.flatMap shownChar ++ ['\x22']))

end MiniLisp
