/-! Lists that carry their length. The count is kept beside the elements and every operation brings
both up to date on its own, so that asking for the length never walks the list. -/

namespace MiniLisp

/-- Elements and the number of them (`List`). -/
structure CountedList (α : Type) where
  items : List α
  count : Nat
deriving Repr, Inhabited

namespace CountedList

variable {α : Type}

/-- No elements (`List.empty`). -/
def empty : CountedList α := ⟨[], 0⟩

/-- The list with one more element in front (`List.cons`). -/
def cons (value : α) (list : CountedList α) : CountedList α :=
  ⟨value :: list.items, list.count + 1⟩

/-- All but the first element; of the empty list, the empty list (`List.rest`). -/
def rest (list : CountedList α) : CountedList α :=
  match list.items with
  | [] => empty
  | _ :: items => ⟨items, list.count - 1⟩

/-- The first element (`List.first`). -/
def first? (list : CountedList α) : Option α := list.items.head?

/-- A list is empty if its count says so (`List.is_empty`). -/
def isEmpty (list : CountedList α) : Bool := list.count == 0

/-- The given elements, put in front one by one from the last. -/
def ofList (items : List α) : CountedList α := items.foldr cons empty

theorem ofList_cons (value : α) (items : List α) : ofList (value :: items) = cons value (ofList items) :=
  rfl

theorem ofList_eq (items : List α) : ofList items = ⟨items, items.length⟩ := by
  induction items with
  | nil => rfl
  | cons value items ih => rw [ofList_cons, ih, cons, List.length_cons]

theorem rest_ofList (items : List α) : (ofList items).rest = ofList items.tail := by
  rw [ofList_eq, ofList_eq, rest]
  cases items <;> rfl

end CountedList

end MiniLisp
