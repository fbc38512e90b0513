import MiniLisp.Terminal.Cluster

/-! Corrections in what was typed, for the program's own console: a backspace takes back the cluster
before it, be it a line break. Where there is nothing left to take back, it does nothing. The console
itself takes any way of correcting a text. -/

namespace MiniLisp

/-- The backspace, which is always a cluster of its own. -/
def backspace : Char := '\x08'

/-- Adds a cluster to those that were kept so far, the last one first. -/
def correct (kept : List (List Char)) (cluster : List Char) : List (List Char) :=
  if cluster = [backspace] then kept.tail else cluster :: kept

/-- A text with its backspaces carried out from left to right. -/
def corrected (text : List Char) : List Char :=
  ((clusters text).foldl correct []).reverse.flatten

end MiniLisp
