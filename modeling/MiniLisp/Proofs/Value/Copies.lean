import MiniLisp.Proofs.Value.Equality

/-! Copies of values. A copy is the same value but for the origins of its maps. Equality looks at
origins only to settle the comparison of a map with itself. So values can be replaced by copies of them
in a comparison, unless they have a map in common that, compared entry by entry, would not be equal to
itself. -/

namespace MiniLisp

namespace Value

/-! ### Values up to the origins of their maps -/

mutual

/-- A value with one number for all of its maps. Everything else stays where it is. -/
def unnumbered : Value → Value
  | pair car cdr => pair (unnumbered car) (unnumbered cdr)
  | list items => list (unnumberedAll items)
  | vec items => vec (unnumberedAll items)
  | map _ entries => map (.literal 0) (unnumberedEntries entries)
  | value => value

/-- Each of some values with one number for all of its maps. -/
def unnumberedAll : List Value → List Value
  | [] => []
  | item :: items => unnumbered item :: unnumberedAll items

/-- The keys and values of some entries with one number for all of their maps. -/
def unnumberedEntries : List (Value × Value) → List (Value × Value)
  | [] => []
  | (key, value) :: entries => (unnumbered key, unnumbered value) :: unnumberedEntries entries

end

/-- A list whose elements are copies of those of another starts as that one does. -/
theorem exists_cons_of_unnumberedAll {item : Value} {copies items : List Value}
    (same : unnumberedAll copies = unnumberedAll (item :: items)) :
    ∃ copy others, copies = copy :: others ∧ copy.unnumbered = item.unnumbered ∧
      unnumberedAll others = unnumberedAll items := by
  cases copies with
  | nil => cases same
  | cons copy others =>
    obtain ⟨head, tail⟩ := List.cons.inj same
    exact ⟨copy, others, rfl, head, tail⟩

/-- What agrees with entries in turn is the keys and values of entries that agree with them. -/
theorem exists_entries_of_unnumberedAll {entries : Entries} {copies : List Value}
    (same : unnumberedAll copies = unnumberedAll entries.flat) :
    ∃ entries' : Entries, copies = entries'.flat ∧
      unnumberedEntries entries' = unnumberedEntries entries := by
  induction entries generalizing copies with
  | nil =>
    cases copies with
    | nil => exact ⟨[], rfl, rfl⟩
    | cons => cases same
  | cons entry entries ih =>
    have pieces : unnumberedAll copies =
        unnumberedAll (entry.1 :: entry.2 :: Entries.flat entries) := same
    obtain ⟨key, copies, rfl, keys, others⟩ := exists_cons_of_unnumberedAll pieces
    obtain ⟨value, copies, rfl, values, others⟩ := exists_cons_of_unnumberedAll others
    obtain ⟨entries', rfl, agree⟩ := ih others
    refine ⟨(key, value) :: entries', rfl, ?_⟩
    simp only [unnumberedEntries, keys, values, agree]

theorem unnumberedAll_eq_map (items : List Value) : unnumberedAll items = items.map unnumbered := by
  induction items with
  | nil => rfl
  | cons item items ih => simp only [unnumberedAll, List.map_cons, ih]

theorem unnumberedEntries_eq_map (entries : Entries) : unnumberedEntries entries =
    entries.map fun entry => (entry.1.unnumbered, entry.2.unnumbered) := by
  induction entries with
  | nil => rfl
  | cons entry entries ih => simp only [unnumberedEntries, List.map_cons, ih]

/-- The parts of a value up to the origins of its maps are its parts up to these. -/
theorem mem_children_unnumbered (held : item ∈ children value) :
    item.unnumbered ∈ children value.unnumbered := by
  cases value with
  | pair car cdr =>
    change item.unnumbered ∈ [car, cdr].map unnumbered
    exact List.mem_map_of_mem held
  | list items =>
    change item.unnumbered ∈ unnumberedAll items
    rw [unnumberedAll_eq_map]
    exact List.mem_map_of_mem held
  | vec items =>
    change item.unnumbered ∈ unnumberedAll items
    rw [unnumberedAll_eq_map]
    exact List.mem_map_of_mem held
  | map origin entries =>
    obtain ⟨entry, member, same⟩ := Entries.mem_flat.1 held
    refine Entries.mem_flat.2 ⟨(entry.1.unnumbered, entry.2.unnumbered), ?_, ?_⟩
    · rw [unnumberedEntries_eq_map]
      exact List.mem_map_of_mem member
    · exact same.imp (congrArg unnumbered) (congrArg unnumbered)
  | _ => cases held

/-- Every item of a copy is the copy of an item. -/
theorem exists_mem_of_unnumberedAll {items copies : List Value}
    (same : unnumberedAll copies = unnumberedAll items) (member : copy ∈ copies) :
    ∃ item ∈ items, copy.unnumbered = item.unnumbered := by
  rw [unnumberedAll_eq_map, unnumberedAll_eq_map] at same
  have found : copy.unnumbered ∈ items.map unnumbered := by
    rw [← same]
    exact List.mem_map_of_mem member
  obtain ⟨item, inside, agree⟩ := List.mem_map.1 found
  exact ⟨item, inside, agree.symm⟩

section
variable {entries copies : Entries} (same : unnumberedEntries copies = unnumberedEntries entries)
include same

theorem unnumberedEntries_length : copies.length = entries.length := by
  rw [unnumberedEntries_eq_map, unnumberedEntries_eq_map] at same
  simpa using congrArg List.length same

/-- The entries of a copy are copies of the entries in order. -/
theorem getElem_of_unnumberedEntries (inside : place < entries.length)
    (inside' : place < copies.length) :
    copies[place].1.unnumbered = entries[place].1.unnumbered ∧
      copies[place].2.unnumbered = entries[place].2.unnumbered := by
  rw [unnumberedEntries_eq_map, unnumberedEntries_eq_map] at same
  have agree := List.getElem_of_eq same (by simpa using inside')
  simpa using agree

theorem exists_mem_of_unnumberedEntries (member : copy ∈ copies) :
    ∃ entry ∈ entries, copy.1.unnumbered = entry.1.unnumbered ∧
      copy.2.unnumbered = entry.2.unnumbered := by
  obtain ⟨place, inside', rfl⟩ := List.getElem_of_mem member
  have inside : place < entries.length := unnumberedEntries_length same ▸ inside'
  exact ⟨_, List.getElem_mem inside, getElem_of_unnumberedEntries same inside inside'⟩

end

/-- The elements of a copy are copies of the elements. -/
theorem chainItems?_unnumbered (value : Value) :
    chainItems? value.unnumbered = (chainItems? value).map unnumberedAll := by
  induction value with
  | pair car cdr _ ih =>
    simp only [unnumbered, chainItems?, ih, Option.map_eq_map, Option.map_map]
    rfl
  | _ => rfl

theorem items?_unnumbered (value : Value) :
    items? value.unnumbered = (items? value).map unnumberedAll := by
  cases value with
  | pair car cdr => exact chainItems?_unnumbered (pair car cdr)
  | _ => rfl

theorem exists_items_of_unnumbered (same : copy.unnumbered = value.unnumbered)
    (found : items? value = some items) :
    ∃ copies, items? copy = some copies ∧ unnumberedAll copies = unnumberedAll items := by
  have copied := items?_unnumbered copy
  rw [same, items?_unnumbered, found] at copied
  exact Option.map_eq_some_iff.1 copied.symm

/-- A value after its copy, by what kind of value it is. -/
inductive CopyShape : Value → Value → Prop where
  | pair (first : car'.unnumbered = car.unnumbered) (second : cdr'.unnumbered = cdr.unnumbered) :
      CopyShape (pair car' cdr') (pair car cdr)
  | list : CopyShape (list items') (list items)
  | vec : CopyShape (vec items') (vec items)
  | map {entries entries' : Entries}
      (same : unnumberedEntries entries' = unnumberedEntries entries) :
      CopyShape (map origin' entries') (map origin entries)
  | closure : CopyShape (closure serial params body scope) (closure serial params body scope)
  | leaf (scalar : IsScalar value) : CopyShape value value

theorem copyShape (same : copy.unnumbered = value.unnumbered) : CopyShape copy value := by
  cases value with
  | pair car cdr =>
    cases copy with
    | pair => exact .pair (Value.pair.inj same).1 (Value.pair.inj same).2
    | _ => cases same
  | list =>
    cases copy with
    | list => exact .list
    | _ => cases same
  | vec =>
    cases copy with
    | vec => exact .vec
    | _ => cases same
  | map =>
    cases copy with
    | map => exact .map (Value.map.inj same).2
    | _ => cases same
  | closure =>
    cases copy <;> cases same
    exact .closure
  | _ =>
    cases copy <;> cases same
    all_goals exact .leaf trivial

theorem eq_of_scalar (same : copy.unnumbered = value.unnumbered) (scalar : IsScalar value) :
    copy = value := by
  cases copyShape same with
  | closure | leaf => rfl
  | _ => cases scalar

/-! ### Comparing copies -/

/-- Whether the maps that two values have in common are answered by themselves: what is looked up under
a key of such a map is equal to what the key stands with. -/
def SharedAnswered (left right : Value) : Prop :=
  ∀ origin (entries : Entries), Contains left (map origin entries) →
    Contains right (map origin entries) → answersAll entries entries = true

theorem SharedAnswered.symm (shared : SharedAnswered left right) : SharedAnswered right left :=
  fun origin entries held held' => shared origin entries held' held

/-- Two values, and copies of them to compare in their place. -/
structure Replacement (left right left' right' : Value) : Prop where
  first : left'.unnumbered = left.unnumbered
  second : right'.unnumbered = right.unnumbered
  shared : SharedAnswered left right
  shared' : SharedAnswered left' right'

namespace Replacement

theorem symm (replaced : Replacement left right left' right') :
    Replacement left' right' left right :=
  ⟨replaced.first.symm, replaced.second.symm, replaced.shared', replaced.shared⟩

theorem swap (replaced : Replacement left right left' right') :
    Replacement right left right' left' :=
  ⟨replaced.second, replaced.first, replaced.shared.symm, replaced.shared'.symm⟩

theorem parts {part part' copy copy' : Value} (replaced : Replacement left right left' right')
    (held : Contains left part) (held' : Contains right part') (copied : Contains left' copy)
    (copied' : Contains right' copy') (first : copy.unnumbered = part.unnumbered)
    (second : copy'.unnumbered = part'.unnumbered) : Replacement part part' copy copy' :=
  ⟨first, second,
    fun origin entries inside inside' =>
      replaced.shared origin entries (held.trans inside) (held'.trans inside'),
    fun origin entries inside inside' =>
      replaced.shared' origin entries (copied.trans inside) (copied'.trans inside')⟩

/-- Copies of two values that are not both sequences are not both sequences. -/
theorem apart (replaced : Replacement left right left' right')
    (apart : ∀ items items', items? left = some items → items? right = some items' → False)
    (copies copies' : List Value) (found : items? left' = some copies)
    (found' : items? right' = some copies') : False := by
  obtain ⟨items, given, -⟩ := exists_items_of_unnumbered replaced.first.symm found
  obtain ⟨items', given', -⟩ := exists_items_of_unnumbered replaced.second.symm found'
  exact apart items items' given given'

end Replacement

/-- What is known of smaller values when copies are compared in place of two values. -/
def PartsReplaced (left right left' right' : Value) : Prop :=
  ∀ part part' copy copy', Replacement part part' copy copy' →
    sizeOf part + sizeOf part' + sizeOf copy + sizeOf copy' <
      sizeOf left + sizeOf right + sizeOf left' + sizeOf right' →
    part.equals part' = copy.equals copy'

theorem equalsAll_of_copies {items items' copies copies' : List Value}
    (same : unnumberedAll copies = unnumberedAll items)
    (same' : unnumberedAll copies' = unnumberedAll items')
    (each : ∀ item ∈ items, ∀ item' ∈ items', ∀ copy ∈ copies, ∀ copy' ∈ copies',
      copy.unnumbered = item.unnumbered → copy'.unnumbered = item'.unnumbered →
        item.equals item' = copy.equals copy')
    (equal : equalsAll items items' = true) : equalsAll copies copies' = true := by
  induction items generalizing items' copies copies' with
  | nil =>
    cases items' with
    | cons => simp [equalsAll, comparisonAll] at equal
    | nil =>
      rw [unnumberedAll_eq_map] at same same'
      obtain rfl := List.map_eq_nil_iff.1 same
      obtain rfl := List.map_eq_nil_iff.1 same'
      exact equal
  | cons item items ih =>
    cases items' with
    | nil => simp [equalsAll, comparisonAll] at equal
    | cons item' items' =>
      obtain ⟨copy, copies, rfl, head, tail⟩ := exists_cons_of_unnumberedAll same
      obtain ⟨copy', copies', rfl, head', tail'⟩ := exists_cons_of_unnumberedAll same'
      rw [equalsAll_cons, Bool.and_eq_true] at equal ⊢
      have here := each item List.mem_cons_self item' List.mem_cons_self copy List.mem_cons_self
        copy' List.mem_cons_self head head'
      refine ⟨here ▸ equal.1, ih tail tail' ?_ equal.2⟩
      intro other member other' member' twin inside twin' inside'
      exact each other (List.mem_cons_of_mem _ member) other' (List.mem_cons_of_mem _ member')
        twin (List.mem_cons_of_mem _ inside) twin' (List.mem_cons_of_mem _ inside')

theorem answer?_of_copies {entries copies : Entries}
    (same : unnumberedEntries copies = unnumberedEntries entries)
    (each : ∀ entry ∈ entries, ∀ copy ∈ copies, copy.1.unnumbered = entry.1.unnumbered →
      copy.2.unnumbered = entry.2.unnumbered →
        entry.1.equals key = copy.1.equals key' ∧ entry.2.equals value = copy.2.equals value') :
    answer? entries key value = answer? copies key' value' := by
  induction entries generalizing copies with
  | nil =>
    cases copies with
    | nil => rw [answer?_nil, answer?_nil]
    | cons => cases same
  | cons entry entries ih =>
    cases copies with
    | nil => cases same
    | cons copy copies =>
      obtain ⟨head, tail⟩ := List.cons.inj same
      obtain ⟨keys, values⟩ := Prod.ext_iff.1 head
      obtain ⟨sameKey, sameValue⟩ :=
        each entry List.mem_cons_self copy List.mem_cons_self keys values
      have others := ih tail fun other member twin inside =>
        each other (List.mem_cons_of_mem _ member) twin (List.mem_cons_of_mem _ inside)
      rw [answer?_cons, answer?_cons, others, sameKey, sameValue]

namespace PartsReplaced

theorem children (known : PartsReplaced left right left' right')
    (replaced : Replacement left right left' right')
    (held : item ∈ left.children) (held' : item' ∈ right.children) (copied : copy ∈ left'.children)
    (copied' : copy' ∈ right'.children) (first : copy.unnumbered = item.unnumbered)
    (second : copy'.unnumbered = item'.unnumbered) :
    item.equals item' = copy.equals copy' ∧ item'.equals item = copy'.equals copy := by
  have smaller := sizeOf_children held
  have smaller' := sizeOf_children held'
  have lighter := sizeOf_children copied
  have lighter' := sizeOf_children copied'
  have inside := replaced.parts (.of_mem_children held) (.of_mem_children held')
    (.of_mem_children copied) (.of_mem_children copied') first second
  exact ⟨known _ _ _ _ inside (by omega), known _ _ _ _ inside.swap (by omega)⟩

theorem elements (known : PartsReplaced left right left' right')
    (replaced : Replacement left right left' right')
    (found : items? left = some items) (found' : items? right = some items')
    (equal : equalsAll items items' = true) : left'.equals right' = true := by
  obtain ⟨copies, given, same⟩ := exists_items_of_unnumbered replaced.first found
  obtain ⟨copies', given', same'⟩ := exists_items_of_unnumbered replaced.second found'
  rw [equals_eq]
  simp only [given, given']
  refine equalsAll_of_copies same same' ?_ equal
  intro item held item' held' copy copied copy' copied' first second
  have smaller := List.sizeOf_lt_of_mem held
  have smaller' := List.sizeOf_lt_of_mem held'
  have lighter := List.sizeOf_lt_of_mem copied
  have lighter' := List.sizeOf_lt_of_mem copied'
  have bound := sizeOf_items found
  have bound' := sizeOf_items found'
  have limit := sizeOf_items given
  have limit' := sizeOf_items given'
  refine known _ _ _ _ (replaced.parts (.of_items found held) (.of_items found' held')
    (.of_items given copied) (.of_items given' copied') first second) ?_
  omega

theorem contents {entries entries' copies copies' : Entries}
    (known : PartsReplaced (map origin entries) (map origin' entries') (map place copies)
      (map place' copies'))
    (replaced : Replacement (map origin entries) (map origin' entries') (map place copies)
      (map place' copies'))
    (same : unnumberedEntries copies = unnumberedEntries entries)
    (same' : unnumberedEntries copies' = unnumberedEntries entries')
    (answered : answersAll entries' entries = true) : answersAll copies' copies = true := by
  rw [answersAll_iff] at answered ⊢
  intro copy member
  obtain ⟨entry, inside, keys, values⟩ := exists_mem_of_unnumberedEntries same member
  rw [← answered entry inside]
  refine (answer?_of_copies same' ?_).symm
  intro entry' member' copy' inside' keys' values'
  have held := mem_children_map origin inside
  have held' := mem_children_map origin' member'
  have copied := mem_children_map place member
  have copied' := mem_children_map place' inside'
  exact ⟨(known.children replaced held.1 held'.1 copied.1 copied'.1 keys keys').2,
    (known.children replaced held.2 held'.2 copied.2 copied'.2 values values').2⟩

theorem pairs (known : PartsReplaced (pair car cdr) (pair car' cdr') left' right')
    (replaced : Replacement (pair car cdr) (pair car' cdr') left' right')
    (apart : ∀ items items', items? (pair car cdr) = some items →
      items? (pair car' cdr') = some items' → False)
    (cars : car.equals car' = true) (cdrs : cdr.equals cdr' = true) :
    left'.equals right' = true := by
  cases copyShape replaced.first with
  | leaf scalar => cases scalar
  | pair first second =>
  cases copyShape replaced.second with
  | leaf scalar => cases scalar
  | pair first' second' =>
  have firsts := known.children replaced (.head _) (.head _) (.head _) (.head _) first first'
  have seconds := known.children replaced (.tail _ (.head _)) (.tail _ (.head _))
    (.tail _ (.head _)) (.tail _ (.head _)) second second'
  rw [equals_eq]
  split
  · next found found' => exact (replaced.apart apart _ _ found found').elim
  · rw [firsts.1] at cars
    rw [seconds.1] at cdrs
    simp only [cars, cdrs, Bool.and_self]

theorem maps {entries entries' : Entries}
    (known : PartsReplaced (map origin entries) (map origin' entries') left' right')
    (replaced : Replacement (map origin entries) (map origin' entries') left' right')
    (equal : (origin == origin' && identicalEntries entries entries' ||
      entries.length == entries'.length && answersAll entries' entries) = true) :
    left'.equals right' = true := by
  cases copyShape replaced.first with
  | leaf scalar => cases scalar
  | map same =>
  cases copyShape replaced.second with
  | leaf scalar => cases scalar
  | map same' =>
  have answered : entries.length = entries'.length ∧ answersAll entries' entries = true := by
    rw [Bool.or_eq_true] at equal
    rcases equal with equal | equal
    · -- The shortcut: one and the same map, which the two values have in common.
      have whole : map origin entries = map origin' entries' :=
        (identical_iff _ _).1 (by rwa [identical])
      cases whole
      exact ⟨rfl, replaced.shared origin entries .self .self⟩
    · rwa [Bool.and_eq_true, beq_iff_eq] at equal
  have contents := known.contents replaced same same' answered.2
  have lengths := unnumberedEntries_length same
  have lengths' := unnumberedEntries_length same'
  rw [equals_eq]
  simp [items?, lengths, lengths', answered.1, contents]

/-- A comparison of two values that says yes says yes of their copies. -/
theorem equals (known : PartsReplaced left right left' right')
    (replaced : Replacement left right left' right') (equal : left.equals right = true) :
    left'.equals right' = true := by
  rw [equals_eq] at equal
  split at equal
  · next found found' => exact known.elements replaced found found' equal
  · next apart =>
    split at equal
    · rw [Bool.and_eq_true] at equal
      exact known.pairs replaced apart equal.1 equal.2
    · exact known.maps replaced equal
    · cases copyShape replaced.first with
      | leaf scalar => cases scalar
      | closure =>
      cases copyShape replaced.second with
      | leaf scalar => cases scalar
      | closure =>
      rw [equals_eq]
      exact equal
    · next pairs maps closures =>
      obtain rfl := (identical_iff _ _).1 equal
      have scalar : IsScalar left := by
        cases left with
        | pair => exact pairs _ _ _ _ rfl rfl
        | map => exact maps _ _ _ _ rfl rfl
        | closure => exact closures _ _ _ _ _ _ _ _ rfl rfl
        | list => exact apart _ _ rfl rfl
        | vec => exact apart _ _ rfl rfl
        | _ => trivial
      rw [eq_of_scalar replaced.first scalar, eq_of_scalar replaced.second scalar]
      exact equals_self left

end PartsReplaced

/-- In a comparison, two values can be replaced by copies of them. The induction is on the size of all
four, since a look-up in a map turns the sides around. -/
theorem Replacement.equals_eq_equals (replaced : Replacement left right left' right') :
    left.equals right = left'.equals right' := by
  induction total : sizeOf left + sizeOf right + sizeOf left' + sizeOf right'
    using Nat.strong_induction_on generalizing left right left' right' with
  | _ total ih =>
  subst total
  have known : PartsReplaced left right left' right' :=
    fun _ _ _ _ inside smaller => ih _ smaller inside rfl
  have known' : PartsReplaced left' right' left right :=
    fun _ _ _ _ inside smaller => ih _ (by omega) inside rfl
  rw [Bool.eq_iff_iff]
  exact ⟨known.equals replaced, known'.equals replaced.symm⟩

/-! ### Values that are equal to their copies -/

/-- Whether every map in a value, at any depth, gives under each of its keys a value that is equal to
the one that stands with the key. -/
def SelfAnswering (value : Value) : Prop :=
  ∀ origin (entries : Entries), Contains value (map origin entries) →
    ∀ entry ∈ entries, ∃ found, entries.get? entry.1 = some found ∧ found.equals entry.2 = true

theorem Separated.anew {entries : Entries} (separated : Separated (map origin entries))
    (origin' : Origin) : Separated (map origin' entries) := by
  have inside : ∀ {part}, Contains (map origin' entries) part →
      part = map origin' entries ∨ Contains (map origin entries) part := by
    intro part held
    rcases contains_map.1 held with same | inner
    · exact .inl same
    · exact .inr (contains_map.2 (.inr inner))
  refine ⟨?_, ?_⟩
  · intro car items chain
    rcases inside chain with same | held
    · cases same
    · exact separated.chains car items held
  · intro place others held
    rcases inside held with same | held
    · cases same
      exact separated.keys origin entries .self
    · exact separated.keys place others held

/-- A map that differs from another only in its origin is not settled by the shortcut for one and the
same map. So where equality is equality of forms, every map answers itself. -/
theorem Separated.selfAnswering (separated : Separated value) : SelfAnswering value := by
  intro origin entries held entry member
  obtain ⟨origin', other⟩ : ∃ origin', origin ≠ origin' := by
    cases origin with
    | literal => exact ⟨.made 0, nofun⟩
    | made => exact ⟨.literal 0, nofun⟩
  have whole := separated.part held
  have whole' := whole.anew origin'
  have equal : (map origin entries).equals (map origin' entries) = true := by
    rw [equals_iff_canonical whole whole', canonical_map, canonical_map]
  have answered : answersAll entries entries = true := by
    rw [equals_eq] at equal
    simpa [items?, other] using equal
  have answer := answersAll_iff.1 answered entry member
  rw [Entries.answer?_eq, Option.map_eq_some_iff] at answer
  exact answer

theorem SelfAnswering.shared (answering : SelfAnswering value) : SharedAnswered value other := by
  intro origin entries held _
  rw [answersAll_iff]
  intro entry member
  obtain ⟨found, given, equal⟩ := answering origin entries held entry member
  rw [Entries.answer?_eq, given]
  exact congrArg some equal

/-- A value whose maps answer themselves is equal to every copy of it. -/
theorem SelfAnswering.equals_copy (answering : SelfAnswering value)
    (same : copy.unnumbered = value.unnumbered) :
    value.equals copy = true ∧ copy.equals value = true := by
  have replaced : Replacement value value value copy :=
    ⟨rfl, same, answering.shared, answering.shared⟩
  refine ⟨?_, ?_⟩
  · rw [← replaced.equals_eq_equals, equals_self]
  · rw [← replaced.swap.equals_eq_equals, equals_self]

end Value

end MiniLisp
