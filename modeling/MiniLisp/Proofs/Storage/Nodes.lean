import MiniLisp.CountedList

/-! Lists as they are stored. An element lies in a node, with the place of the node that holds the next
element, and a list is held by the place of its first node. So what follows an element is shared by all lists
in which it follows: putting an element in front of a list makes one node, and the remainder of a list makes
none. Nothing that is stored is changed, and a node points to older ones only, so a list stays what it is
while more is stored. -/

namespace MiniLisp

/-- An element of a list, and the place of the node with the next one. -/
structure Node (α : Type) where
  value : α
  next : Option Nat

/-- All that is stored, the newest cell first: nodes of lists, and other things in between. The place of a
cell is the number of older cells. -/
abbrev Cells (α β : Type) := List (Node α ⊕ β)

/-- A list as it is held: the place of its first node, and the number of its elements. -/
structure StoredList where
  head : Option Nat
  count : Nat
deriving DecidableEq

namespace StoredList

/-- No elements. -/
def empty : StoredList := ⟨none, 0⟩

/-- A list is empty if its count says so. -/
def isEmpty (list : StoredList) : Bool := list.count == 0

end StoredList

namespace Cells

variable {α β : Type}

/-- The cell at a place. -/
def at? : Cells α β → Nat → Option (Node α ⊕ β)
  | [], _ => none
  | cell :: older, place => if place = older.length then some cell else at? older place

theorem at?_older (cell : Node α ⊕ β) {older : Cells α β} (apart : place ≠ older.length) :
    at? (cell :: older) place = older.at? place := by
  rw [at?, if_neg apart]

/-- The node at a place. -/
def node? (cells : Cells α β) (place : Nat) : Option (Node α) := (cells.at? place).bind Sum.getLeft?

/-- The elements of a list from a node on. The next node is older, so it is looked for among older cells. -/
def elementsFrom : Cells α β → Option Nat → List α
  | _, none => []
  | [], some _ => []
  | cell :: older, some place =>
    if place = older.length then
      match cell with
      | .inl node => node.value :: elementsFrom older node.next
      | .inr _ => []
    else elementsFrom older (some place)

theorem elementsFrom_older (cell : Node α ⊕ β) {older : Cells α β} (apart : place ≠ older.length) :
    elementsFrom (cell :: older) (some place) = older.elementsFrom (some place) := by
  cases cell <;> simp [elementsFrom, apart]

/-- The elements of a list. -/
def elements (cells : Cells α β) (list : StoredList) : List α := cells.elementsFrom list.head

/-- The elements of a list together with its count. -/
def counted (cells : Cells α β) (list : StoredList) : CountedList α :=
  ⟨cells.elements list, list.count⟩

/-- A new list with one more element in front of an old one. -/
def cons (cells : Cells α β) (value : α) (list : StoredList) : Cells α β × StoredList :=
  (.inl ⟨value, list.head⟩ :: cells, ⟨some cells.length, list.count + 1⟩)

/-- The first element. -/
def first? (cells : Cells α β) (list : StoredList) : Option α :=
  list.head.bind fun place => (cells.node? place).map Node.value

/-- All but the first element; of a list without a node, the empty list. There is no answer if the count of a
list with a node is zero already, or if there is no node at the place. -/
def rest? (cells : Cells α β) (list : StoredList) : Option StoredList :=
  match list.head with
  | none => some .empty
  | some place => do
    let node ← cells.node? place
    if list.count = 0 then none else some ⟨node.next, list.count - 1⟩

/-- A new list of the given elements, put in front one by one from the last. -/
def ofItems (cells : Cells α β) (items : List α) : Cells α β × StoredList :=
  items.foldr (fun value made => made.1.cons value made.2) (cells, .empty)

/-! ### Chains of nodes -/

/-- Whether nodes are stored one after the other, with these elements, from a place to the end of a list. -/
inductive Chain : Cells α β → Option Nat → List α → Prop where
  | nil : Chain cells none []
  | node (further : Chain older next items) :
      Chain (.inl ⟨value, next⟩ :: older) (some older.length) (value :: items)
  | older (chain : Chain older (some place) items) : Chain (cell :: older) (some place) items

namespace Chain

theorem lt_length {cells : Cells α β} (chain : Chain cells (some place) items) :
    place < cells.length := by
  generalize start : some place = head at chain
  induction chain with
  | nil => cases start
  | node => cases start; simp
  | older _ ih =>
    have := ih start
    simp only [List.length_cons]
    omega

/-- A chain stays what it is when something is stored. -/
theorem push {cells : Cells α β} (chain : Chain cells head items) (cell : Node α ⊕ β) :
    Chain (cell :: cells) head items := by
  cases head with
  | none => cases chain; exact .nil
  | some place => exact .older chain

theorem append {cells : Cells α β} (chain : Chain cells head items) (newer : Cells α β) :
    Chain (newer ++ cells) head items := by
  induction newer with
  | nil => exact chain
  | cons cell newer ih => exact ih.push cell

theorem elementsFrom_eq {cells : Cells α β} (chain : Chain cells head items) :
    cells.elementsFrom head = items := by
  induction chain with
  | nil => simp [elementsFrom]
  | node _ ih => simp [elementsFrom, ih]
  | older chain ih => rw [elementsFrom_older _ (Nat.ne_of_lt chain.lt_length), ih]

/-- A chain that starts at a place has a node there, and goes on as the node says. -/
theorem exists_node {cells : Cells α β} (chain : Chain cells (some place) items) :
    ∃ value next further, cells.node? place = some ⟨value, next⟩ ∧ items = value :: further ∧
      Chain cells next further := by
  generalize start : some place = head at chain
  induction chain with
  | nil => cases start
  | @node _ next further value chain =>
    cases start
    exact ⟨value, next, further, by simp [node?, at?], rfl, chain.push _⟩
  | older chain ih =>
    cases start
    obtain ⟨value, next, further, found, rfl, others⟩ := ih rfl
    have apart := Nat.ne_of_lt chain.lt_length
    exact ⟨value, next, further, by rwa [node?, at?_older _ apart], rfl, others.push _⟩

end Chain

/-! ### Stored lists -/

/-- Whether a list is stored with these elements and counts them right. -/
structure Stores (cells : Cells α β) (list : StoredList) (items : List α) : Prop where
  chain : Chain cells list.head items
  count : list.count = items.length

theorem stores_empty (cells : Cells α β) : cells.Stores .empty [] := ⟨.nil, rfl⟩

namespace Stores

variable {cells : Cells α β} {list : StoredList} {items : List α}

theorem elements_eq (stores : cells.Stores list items) : cells.elements list = items :=
  stores.chain.elementsFrom_eq

theorem counted_eq (stores : cells.Stores list items) :
    cells.counted list = .ofList items := by
  rw [counted, stores.elements_eq, stores.count, CountedList.ofList_eq]

/-- A list stays what it is while more is stored. -/
theorem grow {later : Cells α β} (stores : cells.Stores list items) (grown : cells <:+ later) :
    later.Stores list items := by
  obtain ⟨newer, rfl⟩ := grown
  exact ⟨stores.chain.append newer, stores.count⟩

theorem cons (stores : cells.Stores list items) (value : α) :
    (cells.cons value list).1.Stores (cells.cons value list).2 (value :: items) :=
  ⟨.node stores.chain, congrArg (· + 1) stores.count⟩

theorem first?_eq (stores : cells.Stores list items) : cells.first? list = items.head? := by
  have chain := stores.chain
  rw [first?]
  cases started : list.head with
  | none =>
    rw [started] at chain
    cases chain
    rfl
  | some place =>
    rw [started] at chain
    obtain ⟨value, next, further, found, rfl, -⟩ := chain.exists_node
    simp [found]

theorem isEmpty_iff (stores : cells.Stores list items) :
    list.isEmpty = true ↔ cells.first? list = none := by
  rw [stores.first?_eq, List.head?_eq_none_iff, StoredList.isEmpty, stores.count, beq_iff_eq,
    List.length_eq_zero_iff]

theorem count_ne_zero (stores : cells.Stores list items) (started : list.head ≠ none) :
    list.count ≠ 0 := by
  obtain ⟨place, head⟩ := Option.ne_none_iff_exists'.1 started
  have chain := stores.chain
  rw [head] at chain
  obtain ⟨value, next, further, -, rfl, -⟩ := chain.exists_node
  simp [stores.count]

/-- The remainder of a list is there already, and one can be taken from the count. -/
theorem exists_rest (stores : cells.Stores list items) :
    ∃ rest, cells.rest? list = some rest ∧ cells.Stores rest items.tail := by
  have chain := stores.chain
  rw [rest?]
  cases started : list.head with
  | none =>
    rw [started] at chain
    cases chain
    exact ⟨_, rfl, stores_empty cells⟩
  | some place =>
    rw [started] at chain
    obtain ⟨value, next, further, found, rfl, others⟩ := chain.exists_node
    have counted : list.count = further.length + 1 := stores.count
    refine ⟨⟨next, further.length⟩, ?_, others, rfl⟩
    simp [found, counted]

end Stores

theorem ofItems_cons (cells : Cells α β) (value : α) (items : List α) :
    cells.ofItems (value :: items) = (cells.ofItems items).1.cons value (cells.ofItems items).2 :=
  rfl

theorem stores_ofItems (cells : Cells α β) (items : List α) :
    (cells.ofItems items).1.Stores (cells.ofItems items).2 items := by
  induction items with
  | nil => exact stores_empty cells
  | cons value items ih =>
    rw [ofItems_cons]
    exact ih.cons value

theorem suffix_ofItems (cells : Cells α β) (items : List α) : cells <:+ (cells.ofItems items).1 := by
  induction items with
  | nil => exact List.suffix_rfl
  | cons value items ih => exact ih.trans (List.suffix_cons _ _)

end Cells

end MiniLisp
