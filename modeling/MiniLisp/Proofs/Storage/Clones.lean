import Mathlib
import MiniLisp.Proofs.Storage.References
import MiniLisp.Proofs.Value.Equality

/-! Values that share storage. When values are compared as they are stored, two pairs, two maps or two
closures at one place are taken for equal at once; lists and vectors are always compared element by element.
So a value is equal to whatever shares its storage, although a map that repeats a key is not answered by its
own entries, and a closure is never looked into. For pairs nothing depends on it: where they share storage,
the comparison of their elements or parts, which is skipped, says yes as well. -/

namespace MiniLisp

/-- Whether something held is a pair, a list or a vector. -/
def Ref.isSequential : Ref → Bool
  | .pair _ | .list _ | .vec _ => true
  | _ => false

namespace Storage

/-! ### Comparing what is held -/

/-- What the last entry with an equal key holds. -/
def lastUnder? (same : Ref → Ref → Bool) (entries : List (Ref × Ref)) (key : Ref) : Option Ref :=
  (entries.reverse.find? fun entry => same entry.1 key).map Prod.snd

/-- Compares the contents of maps: each entry of the first is looked up in the second. -/
def comparesEntries (same : Ref → Ref → Bool) (left right : List (Ref × Ref)) : Bool :=
  left.length == right.length && left.all fun entry =>
    match lastUnder? same right entry.1 with
    | some found => same found entry.2
    | none => false

/-- Compares pairs, lists and vectors by what they hold: element by element if both are sequences, and two
pairs otherwise part by part. -/
def comparesParts (storage : Storage) (same : Ref → Ref → Bool) (left right : Ref) : Bool :=
  match storage.items? left, storage.items? right with
  | some items, some items' => items.isEqv items' same
  | _, _ =>
    match left, right with
    | .pair place, .pair place' =>
      same (storage.pairAt place).1 (storage.pairAt place').1 &&
        same (storage.pairAt place).2 (storage.pairAt place').2
    | _, _ => false

/-- Compares two values as they are held, given a way to compare their parts. Pairs, maps and closures at one
place are equal. -/
def compares (storage : Storage) (same : Ref → Ref → Bool) (left right : Ref) : Bool :=
  match left, right with
  | .nil, .nil => true
  | .bool b, .bool b' => b == b'
  | .num n, .num n' => n == n'
  | .str text, .str text' => text == text'
  | .sym symbol, .sym symbol' => symbol == symbol'
  | .map place, .map place' =>
    place == place' || comparesEntries same (storage.mapAt place) (storage.mapAt place')
  | .prim primitive, .prim primitive' => primitive.name == primitive'.name
  | .closure place, .closure place' => place == place'
  | .pair place, .pair place' => place == place' || storage.comparesParts same left right
  | left, right => left.isSequential && right.isSequential && storage.comparesParts same left right

/-- Whether two values are equal, by what is held of them. -/
def equal (storage : Storage) : Ref → Ref → Bool := storage.recurse compares fun _ => false

/-! ### A value and itself -/

theorem isEqv_self {same : Ref → Ref → Bool} {items : List Ref}
    (each : ∀ item ∈ items, same item item = true) : items.isEqv items same = true := by
  induction items with
  | nil => rfl
  | cons item items ih =>
    rw [List.isEqv, each item List.mem_cons_self, ih fun other member => each other (.tail _ member)]
    rfl

/-- A pair, a list or a vector whose elements and parts are equal to themselves is found equal to itself
without a look at its place. -/
theorem comparesParts_self {storage : Storage} {same : Ref → Ref → Bool} (founded : storage.Founded)
    (held : ref.Before storage.length) (sequential : ref.isSequential = true)
    (each : ∀ part : Ref, part.OlderThan ref → same part part = true) :
    storage.comparesParts same ref ref = true := by
  unfold comparesParts
  cases found : storage.items? ref with
  | some items => exact isEqv_self fun item member => each item (founded.older_of_items held found member)
  | none =>
    cases ref with
    | pair place =>
      have car := each _ (founded.parts (storage.car_mem_parts place))
      have cdr := each _ (founded.parts (storage.cdr_mem_parts place))
      simp only [car, cdr, Bool.and_self]
    | list | vec => cases found
    | _ => cases sequential

/-- A value whose parts are equal to themselves is equal to itself. Of a pair, a map or a closure the place
tells, so that only the elements of lists and vectors are asked. -/
theorem compares_self {storage : Storage} {same : Ref → Ref → Bool}
    (each : ∀ part ∈ storage.parts ref, same part part = true) :
    storage.compares same ref ref = true := by
  cases ref with
  | list | vec => exact isEqv_self each
  | _ => simp [compares]

/-! ### Parts as values -/

section

variable {storage : Storage} {same : Ref → Ref → Bool} {left right : Ref}

theorem isEqv_value {items items' : List Ref}
    (each : ∀ item ∈ items, ∀ item' ∈ items',
      same item item' = (storage.value item).equals (storage.value item')) :
    items.isEqv items' same =
      Value.equalsAll (items.map storage.value) (items'.map storage.value) := by
  induction items generalizing items' with
  | nil =>
    cases items' with
    | nil => rw [List.map_nil, Value.equalsAll_nil, List.isEqv]
    | cons =>
      rw [List.map_nil, List.map_cons, Value.equalsAll, Value.comparisonAll]
      rfl
  | cons item items ih =>
    cases items' with
    | nil =>
      rw [List.map_nil, List.map_cons, Value.equalsAll, Value.comparisonAll]
      rfl
    | cons item' items' =>
      rw [List.map_cons, List.map_cons, Value.equalsAll_cons, List.isEqv,
        each item (.head _) item' (.head _), ih fun other member other' member' =>
          each other (.tail _ member) other' (.tail _ member')]

/-- The entries of a map as values. -/
def entryValues (storage : Storage) (entries : List (Ref × Ref)) : Entries :=
  entries.map fun entry => (storage.value entry.1, storage.value entry.2)

theorem lastUnder?_value {entries : List (Ref × Ref)} {key : Ref}
    (each : ∀ entry ∈ entries,
      same entry.1 key = (storage.value entry.1).equals (storage.value key)) :
    (lastUnder? same entries key).map storage.value =
      Entries.get? (storage.entryValues entries) (storage.value key) := by
  induction entries with
  | nil => rfl
  | cons entry entries ih =>
    have others := ih fun other member => each other (.tail _ member)
    rw [entryValues, List.map_cons, Entries.get?, ← entryValues, ← others, lastUnder?, lastUnder?,
      List.reverse_cons, List.find?_append, ← each entry (.head _)]
    cases entries.reverse.find? fun entry => same entry.1 key with
    | some found => rfl
    | none => by_cases equal : same entry.1 key = true <;> simp [equal]

theorem exists_entry_of_lastUnder? {entries : List (Ref × Ref)} {key found : Ref}
    (given : lastUnder? same entries key = some found) : ∃ entry ∈ entries, entry.2 = found := by
  obtain ⟨entry, chosen, rfl⟩ := Option.map_eq_some_iff.1 given
  exact ⟨entry, List.mem_reverse.1 (List.mem_of_find?_eq_some chosen), rfl⟩

theorem comparesEntries_value {entries entries' : List (Ref × Ref)}
    (each : ∀ entry ∈ entries, ∀ entry' ∈ entries',
      same entry'.1 entry.1 = (storage.value entry'.1).equals (storage.value entry.1) ∧
        same entry'.2 entry.2 = (storage.value entry'.2).equals (storage.value entry.2)) :
    comparesEntries same entries entries' =
      ((storage.entryValues entries).length == (storage.entryValues entries').length &&
        Value.answersAll (storage.entryValues entries') (storage.entryValues entries)) := by
  -- What is found under a key is compared with what is asked for, as an answer is.
  have answered : ∀ entry ∈ entries, (match lastUnder? same entries' entry.1 with
        | some found => same found entry.2
        | none => false) = true ↔
      Value.answer? (storage.entryValues entries') (storage.value entry.1) (storage.value entry.2) =
        some true := by
    intro entry member
    have found := lastUnder?_value fun entry' member' => (each entry member entry' member').1
    rw [Entries.answer?_eq, ← found]
    cases given : lastUnder? same entries' entry.1 with
    | none => simp
    | some held =>
      obtain ⟨entry', member', rfl⟩ := exists_entry_of_lastUnder? given
      simp [(each entry member entry' member').2]
  rw [Bool.eq_iff_iff, comparesEntries, Bool.and_eq_true, Bool.and_eq_true, List.all_eq_true,
    Value.answersAll_iff, entryValues, entryValues, List.length_map, List.length_map,
    List.forall_mem_map]
  exact and_congr_right fun _ => forall₂_congr answered

/-! ### What is found equal is equal -/

theorem exists_pair_of_improper (sequential : ref.isSequential = true)
    (improper : storage.items? ref = none) : ∃ place, ref = .pair place := by
  cases ref with
  | pair place => exact ⟨place, rfl⟩
  | list | vec => cases improper
  | _ => cases sequential

theorem comparesParts_value (founded : storage.Founded) (held : left.Before storage.length)
    (held' : right.Before storage.length) (sequential : left.isSequential = true)
    (sequential' : right.isSequential = true)
    (each : ∀ part part' : Ref, part.OlderThan left → part'.OlderThan right →
      same part part' = (storage.value part).equals (storage.value part')) :
    storage.comparesParts same left right = (storage.value left).equals (storage.value right) := by
  have pairs : ∀ place place', left = .pair place → right = .pair place' →
      (same (storage.pairAt place).1 (storage.pairAt place').1 &&
        same (storage.pairAt place).2 (storage.pairAt place').2) =
      ((storage.value (storage.pairAt place).1).equals (storage.value (storage.pairAt place').1) &&
        (storage.value (storage.pairAt place).2).equals (storage.value (storage.pairAt place').2)) := by
    rintro place place' rfl rfl
    rw [each _ _ (founded.parts (storage.car_mem_parts place))
        (founded.parts (storage.car_mem_parts place')),
      each _ _ (founded.parts (storage.cdr_mem_parts place))
        (founded.parts (storage.cdr_mem_parts place'))]
  unfold comparesParts
  rw [Value.equals_eq, founded.items?_value held, founded.items?_value held', founded.value_eq held,
    founded.value_eq held']
  cases found : storage.items? left with
  | some items =>
    cases found' : storage.items? right with
    | some items' =>
      refine isEqv_value fun item member item' member' => ?_
      exact each item item' (founded.older_of_items held found member)
        (founded.older_of_items held' found' member')
    | none =>
      obtain ⟨place', rfl⟩ := exists_pair_of_improper sequential' found'
      cases left with
      | pair place => exact pairs place place' rfl rfl
      | list | vec => rfl
      | _ => cases sequential
  | none =>
    obtain ⟨place, rfl⟩ := exists_pair_of_improper sequential found
    cases right with
    | pair place' => exact pairs place place' rfl rfl
    | list | vec => rfl
    | _ => cases sequential'

/-- A sequence or a pair equals nothing that is neither. -/
theorem equals_of_unlike (founded : storage.Founded) (held : left.Before storage.length)
    (held' : right.Before storage.length) (sequential : left.isSequential = true)
    (other : right.isSequential = false) :
    (storage.value left).equals (storage.value right) = false := by
  have unlisted : storage.items? right = none := by
    cases right <;> first | rfl | cases other
  rw [Value.equals_eq, founded.items?_value held, founded.items?_value held', unlisted,
    founded.value_eq held, founded.value_eq held']
  cases right with
  | pair | list | vec => cases other
  | _ => cases storage.items? left <;> cases left <;> first | rfl | cases sequential

/-- Maps are compared by their places or by their entries, as their values are. -/
theorem compares_map_value {place place' : Nat} (founded : storage.Founded)
    (held : (Ref.map place).Before storage.length) (held' : (Ref.map place').Before storage.length)
    (each : ∀ part ∈ storage.parts (.map place), ∀ part' ∈ storage.parts (.map place'),
      same part' part = (storage.value part').equals (storage.value part)) :
    (place == place' || comparesEntries same (storage.mapAt place) (storage.mapAt place')) =
      (storage.value (.map place)).equals (storage.value (.map place')) := by
  have keys : ∀ {own} {entry : Ref × Ref}, entry ∈ storage.mapAt own →
      entry.1 ∈ storage.parts (.map own) := fun member =>
    List.mem_flatMap.2 ⟨_, member, .head _⟩
  have values : ∀ {own} {entry : Ref × Ref}, entry ∈ storage.mapAt own →
      entry.2 ∈ storage.parts (.map own) := fun member =>
    List.mem_flatMap.2 ⟨_, member, .tail _ (.head _)⟩
  by_cases shared : place = place'
  · rw [shared, Value.equals_self, beq_self_eq_true, Bool.true_or]
  · -- Values of maps at different places have different origins, so no shortcut is left.
    have contents := comparesEntries_value fun entry member entry' member' =>
      And.intro (each entry.1 (keys member) entry'.1 (keys member'))
        (each entry.2 (values member) entry'.2 (values member'))
    have apart : (Origin.made place == Origin.made place') = false := by
      rw [beq_eq_false_iff_ne, Ne, Origin.made.injEq]
      exact shared
    rw [beq_false_of_ne shared, Bool.false_or, contents, founded.value_eq held,
      founded.value_eq held', Value.equals_eq]
    simp only [valueWith, Value.items?, apart, Bool.false_and, Bool.false_or]
    rfl

/-- Where the parts of two values are compared as their values are, so are the two. -/
theorem compares_value (founded : storage.Founded) (held : left.Before storage.length)
    (held' : right.Before storage.length)
    (each : ∀ part part' : Ref, part.OlderThan left → part'.OlderThan right →
      same part part' = (storage.value part).equals (storage.value part') ∧
        same part' part = (storage.value part').equals (storage.value part)) :
    storage.compares same left right = (storage.value left).equals (storage.value right) := by
  have parts := fun part part' older older' => (each part part' older older').1
  cases left with
  | pair place =>
    cases right with
    | pair place' =>
      by_cases shared : place = place'
      · rw [shared, Value.equals_self, compares, beq_self_eq_true, Bool.true_or]
      · rw [compares, beq_false_of_ne shared, Bool.false_or]
        exact comparesParts_value founded held held' rfl rfl parts
    | list | vec => exact comparesParts_value founded held held' rfl rfl parts
    | _ => exact (equals_of_unlike founded held held' rfl rfl).symm
  | list | vec =>
    cases right with
    | pair | list | vec => exact comparesParts_value founded held held' rfl rfl parts
    | _ => exact (equals_of_unlike founded held held' rfl rfl).symm
  | map place =>
    cases right with
    | map place' =>
      exact compares_map_value founded held held' fun part member part' member' =>
        (each part part' (founded.parts member) (founded.parts member')).2
    | _ =>
      rw [Value.equals_eq, founded.value_eq held, founded.value_eq held']
      rfl
  | prim primitive =>
    rw [Value.equals_eq, founded.value_eq held, founded.value_eq held']
    cases right with
    | prim primitive' =>
      rw [compares, Bool.eq_iff_iff, beq_iff_eq, Primitive.name_injective.eq_iff]
      exact beq_iff_eq.symm
    | _ => rfl
  | _ =>
    rw [Value.equals_eq, founded.value_eq held, founded.value_eq held']
    cases right <;> rfl

/-- What is found equal of two values is whether they are equal. -/
theorem equal_value (founded : storage.Founded) (held : left.Before storage.length)
    (held' : right.Before storage.length) :
    storage.equal left right = (storage.value left).equals (storage.value right) := by
  induction storage generalizing left right with
  | nil =>
    refine compares_value founded held held' fun part part' older => ?_
    obtain ⟨place, own, -⟩ := older
    exact absurd (held place own) (Nat.not_lt_zero place)
  | cons cell storage ih =>
    -- Parts are compared in the older storage, where their values are the same.
    refine compares_value founded held held' fun part part' older older' => ?_
    have before := older.before held
    have before' := older'.before held'
    rw [founded.older.value_push cell before, founded.older.value_push cell before']
    exact ⟨ih founded.older before before', ih founded.older before' before⟩

theorem equal_eq (founded : storage.Founded) (held : left.Before storage.length)
    (held' : right.Before storage.length) :
    storage.equal left right = storage.compares storage.equal left right := by
  rw [equal_value founded held held']
  refine (compares_value founded held held' fun part part' older older' => ?_).symm
  have before := older.before (held.mono (Nat.le_succ _))
  have before' := older'.before (held'.mono (Nat.le_succ _))
  exact ⟨equal_value founded before before', equal_value founded before' before⟩

end

/-! ### A value and its copy -/

theorem equal_self {storage : Storage} (founded : storage.Founded) (held : ref.Before storage.length) :
    storage.equal ref ref = true := by
  refine founded.part_induction ?_ ref held
  intro ref held ih
  rw [equal_eq founded held held]
  exact compares_self fun part member => (ih part member).2

end Storage

/-- Whoever copies what is held of a value holds something equal, whatever the value is made of. Of two pairs
at one place the comparison that is skipped would say yes, through their elements if both are sequences and
through their parts if not. What is found equal of things held is what is equal as values, of which each is
equal to itself. -/
theorem clones_are_equal (storage : Storage) (founded : storage.Founded) :
    (∀ ref : Ref, ref.Before storage.length → storage.equal ref ref = true) ∧
      (∀ place < storage.length,
        storage.comparesParts storage.equal (.pair place) (.pair place) = true) ∧
      (∀ left right : Ref, left.Before storage.length → right.Before storage.length →
        storage.equal left right = storage.compares storage.equal left right ∧
          storage.equal left right = (storage.value left).equals (storage.value right)) ∧
      ∀ value : Value, value.equals value = true := by
  refine ⟨fun ref held => Storage.equal_self founded held, ?_, ?_, Value.equals_self⟩
  · intro place inside
    have held : (Ref.pair place).Before storage.length := by
      rintro own ⟨⟩
      exact inside
    refine Storage.comparesParts_self founded held rfl fun part older => ?_
    exact Storage.equal_self founded (older.before (held.mono (Nat.le_succ _)))
  · intro left right held held'
    exact ⟨Storage.equal_eq founded held held', Storage.equal_value founded held held'⟩

/-- A list of a pair and a closure, where the pair is a chain that ends in a vector and the vector holds a map
that repeats a key. Last another map with the same entries. -/
def Storage.mixed : Storage :=
  [.inr (.map [(.num 1, .num 1), (.num 1, .num 2)]),
    .inl ⟨.pair 2, some 4⟩,
    .inl ⟨.closure 3, none⟩,
    .inr (.closure ⟨[], none⟩ .nil 0),
    .inr (.pair (.num 1) (.vec 1)),
    .inr (.vec [.num 2, .map 0]),
    .inr (.map [(.num 1, .num 1), (.num 1, .num 2)])]

/-- The list is equal to its copy, also where the shortcut for pairs is not taken, although the map in it is
not equal to another one with the same entries. -/
theorem clones_are_equal_repeated_key :
    Storage.mixed.Founded ∧
      Storage.mixed.equal (.list ⟨some 5, 2⟩) (.list ⟨some 5, 2⟩) = true ∧
      Storage.mixed.items? (.pair 2) = none ∧
      Storage.mixed.comparesParts Storage.mixed.equal (.pair 2) (.pair 2) = true ∧
      Storage.mixed.equal (.map 0) (.map 6) = false := by
  have founded : Storage.mixed.Founded := by
    simp [Storage.mixed, Storage.Founded, Ref.Before, Ref.place?, Content.parts]
  obtain ⟨copied, skipped, -, -⟩ := clones_are_equal Storage.mixed founded
  refine ⟨founded, copied _ ?_, rfl, skipped 2 (by decide), by decide⟩
  simp [Ref.Before, Ref.place?, Storage.mixed]

end MiniLisp
