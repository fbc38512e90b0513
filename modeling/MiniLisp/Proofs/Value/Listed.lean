import MiniLisp.Proofs.Value.Equality
import MiniLisp.Value.Printer

/-! Chains of pairs and the lists that are printed alike. A proper chain of pairs and the list of its
elements have the same printed form and the same canonical form. So a value can be replaced by one
without proper chains at any depth, which neither printing nor equality takes notice of. -/

namespace MiniLisp

namespace Value

mutual

/-- A value with a list in place of every proper chain of pairs, at any depth. -/
def listed : Value → Value
  | pair car cdr =>
    match listed cdr with
    | nil => list [listed car]
    | list items => list (listed car :: items)
    | other => pair (listed car) other
  | list items => list (listedAll items)
  | vec items => vec (listedAll items)
  | map origin entries => map origin (listedEntries entries)
  | value => value

/-- Each of some values with lists in place of chains. -/
def listedAll : List Value → List Value
  | [] => []
  | item :: items => listed item :: listedAll items

/-- The keys and values of some entries with lists in place of chains. -/
def listedEntries : List (Value × Value) → List (Value × Value)
  | [] => []
  | (key, value) :: entries => (listed key, listed value) :: listedEntries entries

end

theorem listedAll_eq_map (items : List Value) : listedAll items = items.map listed := by
  induction items with
  | nil => rfl
  | cons item items ih => simp only [listedAll, List.map_cons, ih]

theorem listedEntries_eq_map (entries : Entries) : listedEntries entries =
    entries.map fun entry => (entry.1.listed, entry.2.listed) := by
  induction entries with
  | nil => rfl
  | cons entry entries ih => simp only [listedEntries, List.map_cons, ih]

/-- What a proper chain becomes: nil stays, and anything else becomes the list of its elements. -/
theorem listed_of_chainItems (found : chainItems? value = some items) :
    (value = nil ∧ items = []) ∨ value.listed = list (items.map listed) := by
  induction value generalizing items with
  | nil =>
    cases found
    exact .inl ⟨rfl, rfl⟩
  | list =>
    cases found
    exact .inr (by rw [listed, listedAll_eq_map])
  | pair car cdr _ ih =>
    obtain ⟨others, further, rfl⟩ := Option.map_eq_some_iff.1 found
    right
    rcases ih further with ⟨rfl, rfl⟩ | same
    · rfl
    · rw [listed, same]
      rfl
  | _ => cases found

theorem listed_pair (found : chainItems? cdr = some items) :
    (pair car cdr).listed = list ((car :: items).map listed) := by
  have whole : chainItems? (pair car cdr) = some (car :: items) := by rw [chainItems?, found]; rfl
  rcases listed_of_chainItems whole with ⟨absent, -⟩ | same
  · cases absent
  · exact same

theorem listed_pair_of_improper (apart : chainItems? cdr.listed = none) (car : Value) :
    (pair car cdr).listed = pair car.listed cdr.listed := by
  rw [listed]
  split
  · next same =>
    rw [same] at apart
    cases apart
  · next same =>
    rw [same] at apart
    cases apart
  · rfl

/-- What is no proper chain does not become one. -/
theorem chainItems?_listed_of_improper (apart : chainItems? value = none) :
    chainItems? value.listed = none := by
  induction value with
  | nil => cases apart
  | list => cases apart
  | pair car cdr _ ih =>
    have further := ih (Option.map_eq_none_iff.1 apart)
    rw [listed_pair_of_improper further, chainItems?, further]
    rfl
  | _ => rfl

/-! ### Printing -/

theorem joinSpaced_cons (text : List Char) (texts : List (List Char)) :
    joinSpaced (text :: texts) = text ++ texts.flatMap (' ' :: ·) := by
  induction texts generalizing text with
  | nil => simp [joinSpaced]
  | cons next texts ih =>
    have further : joinSpaced (text :: next :: texts) =
        text ++ ' ' :: joinSpaced (next :: texts) := rfl
    rw [further, ih, List.flatMap_cons]
    rfl

theorem writeAll_listed {items : List Value}
    (each : ∀ item ∈ items, write .alone item.listed = write .alone item) :
    writeAll (items.map listed) = writeAll items := by
  rw [writeAll_eq_map, writeAll_eq_map, List.map_map]
  exact List.map_congr_left each

theorem writeEntries_listed {entries : Entries} (each : ∀ entry ∈ entries,
    write .alone entry.1.listed = write .alone entry.1 ∧
      write .alone entry.2.listed = write .alone entry.2) :
    writeEntries (listedEntries entries) = writeEntries entries := by
  induction entries with
  | nil => rfl
  | cons entry entries ih =>
    rw [List.forall_mem_cons] at each
    obtain ⟨⟨key, value⟩, others⟩ := each
    simp only [listedEntries, writeEntries, key, value, ih others]

/-- A chain of pairs is printed as the list that it becomes. -/
theorem write_listed_pair (first : write .alone car.listed = write .alone car)
    (second : write .tail cdr.listed = write .tail cdr) (place : Place) :
    write place (pair car cdr).listed = write place (pair car cdr) := by
  rw [listed]
  split
  · next same =>
    rw [same] at second
    cases place <;> simp [write, writeAll, joinSpaced, first, ← second]
  · next items same =>
    rw [same] at second
    cases place <;> simp [write, writeAll, joinSpaced_cons, first, ← second]
  · cases place <;> simp [write, first, second]

theorem write_listed (value : Value) (place : Place) :
    write place value.listed = write place value := by
  induction value generalizing place with
  | pair car cdr first second => exact write_listed_pair (first .alone) (second .tail) place
  | list items ih =>
    have same := writeAll_listed fun item member => ih item member .alone
    rw [listed, listedAll_eq_map]
    cases place <;> simp only [write, same]
  | vec items ih =>
    have same := writeAll_listed fun item member => ih item member .alone
    rw [listed, listedAll_eq_map]
    simp only [write, same]
  | map origin entries ih =>
    have same := writeEntries_listed fun entry member =>
      ⟨(ih entry member).1 .alone, (ih entry member).2 .alone⟩
    rw [listed]
    simp only [write, same]
  | _ => rfl

theorem print_listed (value : Value) : value.listed.print = value.print :=
  congrArg String.ofList (value.write_listed .alone)

/-! ### Equality -/

theorem canonical_listed_map {entries : Entries} (origin : Origin)
    (each : ∀ entry ∈ entries, entry.1.listed.canonical = entry.1.canonical ∧
      entry.2.listed.canonical = entry.2.canonical) :
    (map origin entries).listed.canonical = (map origin entries).canonical := by
  rw [listed, listedEntries_eq_map]
  have same : (entries.map fun entry => (entry.1.listed, entry.2.listed)).map canonicalEntry =
      entries.map canonicalEntry := by
    rw [List.map_map]
    refine List.map_congr_left fun entry member => ?_
    exact Prod.ext (each entry member).1 (each entry member).2
  exact canonical_map_congr origin origin fun form => by rw [same]

theorem canonical_listed_items {items : List Value}
    (each : ∀ item ∈ items, item.listed.canonical = item.canonical) :
    (items.map listed).map canonical = items.map canonical := by
  rw [List.map_map]
  exact List.map_congr_left each

/-- In a proper chain, the elements have the forms of what they become if the chain has. -/
theorem canonical_listed_chain (found : chainItems? value = some items)
    (whole : value.listed.canonical = value.canonical) :
    (items.map listed).map canonical = items.map canonical := by
  rcases listed_of_chainItems found with ⟨-, rfl⟩ | same
  · rfl
  · have sequence : items? value = some items := by
      cases value with
      | nil => cases same
      | list | pair => exact found
      | _ => cases found
    rw [same, canonical_sequence rfl, canonical_sequence sequence] at whole
    exact Canonical.sequence.inj whole

/-- A value is equal to what it becomes, as far as equality is equality of forms. -/
theorem canonical_listed (value : Value) : value.listed.canonical = value.canonical := by
  induction value with
  | pair car cdr first second =>
    cases found : chainItems? cdr with
    | some items =>
      have whole : items? (pair car cdr) = some (car :: items) := by rw [items?, found]; rfl
      rw [listed_pair found, canonical_sequence rfl, canonical_sequence whole, List.map_cons,
        List.map_cons, List.map_cons, first, canonical_listed_chain found second]
    | none =>
      have further := chainItems?_listed_of_improper found
      rw [listed_pair_of_improper further, canonical_improper further, canonical_improper found,
        first, second]
  | list items ih =>
    rw [listed, listedAll_eq_map, canonical_sequence rfl, canonical_sequence rfl,
      canonical_listed_items ih]
  | vec items ih =>
    rw [listed, listedAll_eq_map, canonical_sequence rfl, canonical_sequence rfl,
      canonical_listed_items ih]
  | map origin entries ih => exact canonical_listed_map origin ih
  | _ => rfl

/-! ### Keys -/

/-- A value whose parts are without mixed-up maps and chains, and which is none itself. -/
theorem separated_of_children (chain : ∀ car items, value ≠ pair car (vec items))
    (keys : ∀ origin (entries : Entries), value = map origin entries →
      (entries.map fun entry => entry.1.canonical).Nodup)
    (each : ∀ item ∈ children value, Separated item) : Separated value := by
  refine ⟨?_, ?_⟩
  · intro car items held
    rcases contains_iff.1 held with same | ⟨item, member, inside⟩
    · exact chain car items same.symm
    · exact (each item member).chains car items inside
  · intro origin entries held
    rcases contains_iff.1 held with same | ⟨item, member, inside⟩
    · exact keys origin entries same.symm
    · exact (each item member).keys origin entries inside

theorem separated_list {items : List Value} (each : ∀ item ∈ items, Separated item) :
    Separated (list items) :=
  separated_of_children nofun nofun each

theorem separated_vec {items : List Value} (each : ∀ item ∈ items, Separated item) :
    Separated (vec items) :=
  separated_of_children nofun nofun each

theorem separated_map {entries : Entries} (origin : Origin)
    (keys : (entries.map fun entry => entry.1.canonical).Nodup)
    (each : ∀ entry ∈ entries, Separated entry.1 ∧ Separated entry.2) :
    Separated (map origin entries) := by
  refine separated_of_children nofun ?_ ?_
  · rintro _ _ ⟨⟩
    exact keys
  · intro item held
    obtain ⟨entry, member, rfl | rfl⟩ := Entries.mem_flat.1 held
    · exact (each entry member).1
    · exact (each entry member).2

theorem Separated.children_of_list {items : List Value} (separated : Separated (list items)) :
    ∀ item ∈ items, Separated item :=
  fun _ member => separated.part (.of_mem_children member)

end Value

end MiniLisp
