import MiniLisp.Value.Equality

/-! The contents of maps: entries in the order of insertion, whose keys are compared by the equality
of the language. Insertion looks for the first entry of an equal key and look-up for the last, which
matters only where a literal that was read repeats a key. -/

namespace MiniLisp

/-- The keys and values of a map, in the order of insertion. -/
abbrev Entries := List (Value × Value)

namespace Entries

/-- Puts a value under a key (`MalMap.insert`). The first entry of an equal key keeps its key and its
place; if there is none, a new entry comes last. -/
def insert : Entries → Value → Value → Entries
  | [], key, value => [(key, value)]
  | (key', value') :: entries, key, value =>
    if key'.equals key then (key', value) :: entries
    else (key', value') :: insert entries key value

/-- The value of the last entry of an equal key (`MalMap.get`). -/
def get? : Entries → Value → Option Value
  | [], _ => none
  | (key', value') :: entries, key =>
    match get? entries key with
    | some found => some found
    | none => if key'.equals key then some value' else none

/-- Whether two maps have equal contents, in any order: as many entries, and for each key of the first an
equal value in the second (`MalMap.eq`). -/
def equals (left right : Entries) : Bool :=
  left.length == right.length && Value.answersAll right left

/-- Alternating keys and values as entries, every entry kept (`MalMap.from_flat_unmerged`). The last key
must have a value. -/
def pairUp? : List Value → Option Entries
  | [] => some []
  | [_] => none
  | key :: value :: items => ((key, value) :: ·) <$> pairUp? items

/-- The entries inserted one after the other into an empty map. -/
def merge (entries : Entries) : Entries :=
  entries.foldl (fun built entry => insert built entry.1 entry.2) []

/-- The map of alternating keys and values, where a later value replaces an earlier one
(`MalMap.from_flat`). -/
def ofFlat? (items : List Value) : Option Entries := merge <$> pairUp? items

/-- An entry answers by comparing the value that is looked up with the one asked for. -/
theorem answer?_eq (entries : Entries) (key value : Value) :
    Value.answer? entries key value = (get? entries key).map fun found => found.equals value := by
  induction entries with
  | nil => simp [Value.answer?_nil, get?]
  | cons entry entries ih =>
    rw [Value.answer?_cons, ih, get?]
    cases get? entries key with
    | some found => rfl
    | none =>
      by_cases same : entry.1.equals key = true <;> simp [same]

end Entries

end MiniLisp
