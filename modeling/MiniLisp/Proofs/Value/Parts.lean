import MiniLisp.Value.Entries

/-! The parts of values. A value is a part of itself, and the parts of what it holds as data are its
parts too. A closure holds its body as code, so it has no other part than itself. -/

namespace MiniLisp

namespace Entries

/-- The keys and values of some entries, in turn. -/
def flat (entries : Entries) : List Value := entries.flatMap fun entry => [entry.1, entry.2]

theorem mem_flat {entries : Entries} :
    item ∈ entries.flat ↔ ∃ entry ∈ entries, item = entry.1 ∨ item = entry.2 := by
  simp [flat]

/-- Pairing up succeeds exactly on what entries look like in turn, and gives these entries back. -/
theorem pairUp?_eq_some_iff {items : List Value} {entries : Entries} :
    pairUp? items = some entries ↔ items = entries.flat := by
  fun_induction pairUp? items generalizing entries with
  | case1 => cases entries <;> simp [flat]
  | case2 single =>
    cases entries with
    | nil => simp [flat]
    | cons entry entries => simp [flat]
  | case3 key value items ih =>
    cases entries with
    | nil => simp [flat]
    | cons entry entries =>
      obtain ⟨key', value'⟩ := entry
      simp only [Option.map_eq_map, Option.map_eq_some_iff, ih, List.cons.injEq, Prod.mk.injEq]
      constructor
      · rintro ⟨_, rfl, ⟨rfl, rfl⟩, rfl⟩
        rfl
      · intro same
        obtain ⟨rfl, rfl, rfl⟩ : key = key' ∧ value = value' ∧ items = flat entries := by
          simpa [flat] using same
        exact ⟨entries, rfl, ⟨rfl, rfl⟩, rfl⟩

theorem pairUp?_flat (entries : Entries) : pairUp? entries.flat = some entries :=
  pairUp?_eq_some_iff.2 rfl

/-- Pairing up fails on an odd number of items only. -/
theorem pairUp?_isSome_iff {items : List Value} :
    (pairUp? items).isSome ↔ items.length % 2 = 0 := by
  fun_induction pairUp? items with
  | case1 => simp
  | case2 => simp
  | case3 key value items ih =>
    simp only [Option.map_eq_map, Option.isSome_map, ih, List.length_cons]
    omega

end Entries

namespace Value

/-- The values that a value holds directly. -/
def children : Value → List Value
  | pair car cdr => [car, cdr]
  | list items => items
  | vec items => items
  | map _ entries => Entries.flat entries
  | _ => []

theorem mem_children_map {entries : Entries} (origin : Origin) (member : entry ∈ entries) :
    entry.1 ∈ children (map origin entries) ∧ entry.2 ∈ children (map origin entries) :=
  ⟨Entries.mem_flat.2 ⟨entry, member, .inl rfl⟩, Entries.mem_flat.2 ⟨entry, member, .inr rfl⟩⟩

/-- What stands in the brackets of a value is what it holds. -/
theorem children_of_bracketed (bracketed : bracketed? value = some items) :
    children value = items := by
  unfold bracketed? at bracketed
  split at bracketed <;> cases bracketed <;> rfl

theorem sizeOf_children (held : item ∈ children value) : sizeOf item < sizeOf value := by
  cases value with
  | pair car cdr =>
    simp only [children, List.mem_cons, List.not_mem_nil, or_false] at held
    simp only [pair.sizeOf_spec]
    rcases held with rfl | rfl <;> omega
  | list items =>
    have smaller : sizeOf item < sizeOf items := List.sizeOf_lt_of_mem held
    simp only [list.sizeOf_spec]
    omega
  | vec items =>
    have smaller : sizeOf item < sizeOf items := List.sizeOf_lt_of_mem held
    simp only [vec.sizeOf_spec]
    omega
  | map origin entries =>
    obtain ⟨⟨key, value⟩, member, same⟩ := Entries.mem_flat.1 held
    have smaller := List.sizeOf_lt_of_mem member
    simp only [Prod.mk.sizeOf_spec] at smaller
    simp only [map.sizeOf_spec]
    rcases same with rfl | rfl <;> omega
  | _ => cases held

/-- A value and one of its parts, at any depth. -/
inductive Contains : Value → Value → Prop where
  | self : Contains value value
  | child (held : child ∈ children value) (inside : Contains child part) : Contains value part

theorem Contains.trans (outer : Contains value part) (inner : Contains part deeper) :
    Contains value deeper := by
  induction outer with
  | self => exact inner
  | child held _ ih => exact .child held (ih inner)

theorem Contains.of_mem_children (held : item ∈ children value) : Contains value item :=
  .child held .self

/-- The parts of a value are the value and the parts of what it holds. -/
theorem contains_iff : Contains value part ↔
    part = value ∨ ∃ child ∈ children value, Contains child part := by
  constructor
  · intro contains
    cases contains with
    | self => exact .inl rfl
    | child held inside => exact .inr ⟨_, held, inside⟩
  · rintro (rfl | ⟨child, held, inside⟩)
    · exact .self
    · exact .child held inside

theorem contains_leaf (leaf : children value = []) : Contains value part ↔ part = value := by
  rw [contains_iff, leaf]
  simp

theorem contains_nil : Contains nil part ↔ part = nil := contains_leaf rfl

theorem contains_num : Contains (num n) part ↔ part = num n := contains_leaf rfl

theorem contains_sym : Contains (sym symbol) part ↔ part = sym symbol := contains_leaf rfl

theorem contains_str : Contains (str text) part ↔ part = str text := contains_leaf rfl

theorem contains_pair : Contains (pair car cdr) part ↔
    part = pair car cdr ∨ Contains car part ∨ Contains cdr part := by
  rw [contains_iff]
  simp [children]

theorem contains_list :
    Contains (list items) part ↔ part = list items ∨ ∃ item ∈ items, Contains item part :=
  contains_iff

theorem contains_vec :
    Contains (vec items) part ↔ part = vec items ∨ ∃ item ∈ items, Contains item part :=
  contains_iff

theorem contains_map {entries : Entries} : Contains (map origin entries) part ↔
    part = map origin entries ∨
      ∃ entry ∈ entries, Contains entry.1 part ∨ Contains entry.2 part := by
  rw [contains_iff]
  refine or_congr_right ?_
  constructor
  · rintro ⟨item, held, inside⟩
    obtain ⟨entry, member, rfl | rfl⟩ := Entries.mem_flat.1 held
    · exact ⟨entry, member, .inl inside⟩
    · exact ⟨entry, member, .inr inside⟩
  · rintro ⟨entry, member, inside | inside⟩
    · exact ⟨entry.1, (mem_children_map origin member).1, inside⟩
    · exact ⟨entry.2, (mem_children_map origin member).2, inside⟩

end Value

end MiniLisp
