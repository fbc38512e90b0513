/-! Sets of names, kept as lists in rising order. Names are ordered by their code points, which is
also the order of their bytes in UTF-8. -/

namespace MiniLisp.Names

/-- Puts a name into its place, unless it is there already. -/
def insert (name : String) : List String → List String
  | [] => [name]
  | first :: rest =>
    if name < first then name :: first :: rest
    else if name = first then first :: rest
    else first :: insert name rest

/-- The names in rising order, each one once. -/
def sort (names : List String) : List String := names.foldr insert []

theorem mem_insert {name other : String} {names : List String} :
    other ∈ insert name names ↔ other = name ∨ other ∈ names := by
  induction names with
  | nil => simp [insert]
  | cons first rest ih =>
    rw [insert]
    split
    · simp
    · split
      · next same => simp [same]
      · rw [List.mem_cons, ih, List.mem_cons]
        exact or_left_comm

theorem mem_sort {name : String} {names : List String} : name ∈ sort names ↔ name ∈ names := by
  induction names with
  | nil => rfl
  | cons first rest ih =>
    change name ∈ insert first (sort rest) ↔ _
    rw [mem_insert, ih, List.mem_cons]

end MiniLisp.Names
