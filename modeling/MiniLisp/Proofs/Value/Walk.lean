import MiniLisp.Proofs.Eval.Closures
import MiniLisp.Proofs.Value.Listed

/-! Walking along lists. A program that asks for the first part and the remainder again and again, until
nothing is left, sees the elements of a list or a proper chain of pairs, each once and in order. These are
the elements that are counted, printed and compared, and what `cons` puts together can be taken apart. -/

namespace MiniLisp

open Value

namespace Primitive

/-- A walk along a value. It ends where `empty?` says yes. Elsewhere the `car` is visited, and the walk
goes on with the `cdr`. -/
inductive Walk : Value → List Value → Value → Prop where
  | stop (none : isEmpty.result [value] = .ok (.bool true)) : Walk value [] value
  | step (some : isEmpty.result [value] = .ok (.bool false)) (first : car.result [value] = .ok item)
      (remainder : cdr.result [value] = .ok further) (walk : Walk further visited last) :
      Walk value (item :: visited) last

/-- There is only one way to walk. -/
theorem Walk.unique (walk : Walk value visited last) (other : Walk value visited' last') :
    visited' = visited ∧ last' = last := by
  induction walk generalizing visited' with
  | stop none =>
    cases other with
    | stop => exact ⟨rfl, rfl⟩
    | step some => cases none.symm.trans some
  | step some first remainder _ ih =>
    cases other with
    | stop none => cases none.symm.trans some
    | step _ first' remainder' further =>
      cases first.symm.trans first'
      cases remainder.symm.trans remainder'
      obtain ⟨rfl, rfl⟩ := ih further
      exact ⟨rfl, rfl⟩

theorem Walk.isEmpty_last (walk : Walk value visited last) :
    isEmpty.result [last] = .ok (.bool true) := by
  induction walk with
  | stop none => exact none
  | step _ _ _ _ ih => exact ih

theorem walk_list (items : List Value) : Walk (.list items) items (.list []) := by
  induction items with
  | nil => exact .stop rfl
  | cons item items ih => exact .step rfl rfl rfl ih

/-- The elements of a proper chain are visited, wherever on the way a list takes over from the pairs. -/
theorem exists_walk (found : chainItems? value = some items) : ∃ last, Walk value items last := by
  induction value generalizing items with
  | nil =>
    cases found
    exact ⟨.nil, .stop rfl⟩
  | list items =>
    cases found
    exact ⟨.list [], walk_list items⟩
  | pair car cdr _ ih =>
    obtain ⟨others, further, rfl⟩ := Option.map_eq_some_iff.1 found
    obtain ⟨last, walk⟩ := ih further
    exact ⟨last, .step rfl rfl rfl walk⟩
  | _ => cases found

/-! ### Lists and proper chains -/

/-- What `list?` says yes to is a list or a pair at the start of a proper chain. -/
theorem exists_items_of_listLike (listed : listLike value = true) :
    ∃ items, value.items? = some items ∧ chainItems? value = some items := by
  cases value with
  | list items => exact ⟨items, rfl, rfl⟩
  | pair car cdr =>
    obtain ⟨items, found⟩ := Option.isSome_iff_exists.1 listed
    exact ⟨items, found, found⟩
  | _ => cases listed

/-- A proper chain is printed like the list of its elements, at the end of a longer chain as well as
alone. -/
theorem write_chain (found : chainItems? value = some items) :
    write .tail value = (writeAll items).flatMap (' ' :: ·) := by
  induction value generalizing items with
  | nil =>
    cases found
    rfl
  | list items =>
    cases found
    rfl
  | pair car cdr _ ih =>
    obtain ⟨others, further, rfl⟩ := Option.map_eq_some_iff.1 found
    simp only [write, writeAll, List.flatMap_cons, ih further, List.cons_append]
  | _ => cases found

theorem print_items (listed : listLike value = true) (found : value.items? = some items) :
    value.print = (Value.list items).print := by
  cases value with
  | list => cases found; rfl
  | pair car cdr =>
    obtain ⟨others, further, rfl⟩ := Option.map_eq_some_iff.1 found
    simp only [print, write, writeAll, joinSpaced_cons, write_chain further]
  | _ => cases listed

theorem equals_items {value : Value} (found : value.items? = some items) :
    value.equals (.list items) = true := by
  have same := equals_self (.list items)
  rw [equals_eq] at same ⊢
  rw [found]
  exact same

/-! ### Counting -/

theorem size_of_listLike (listed : listLike value = true) (found : value.items? = some items) :
    size value = .ok items.length := by
  cases value with
  | list => cases found; rfl
  | pair => simp only [size, found]
  | _ => cases listed

/-- The size of a value is its count, if that is a word. -/
theorem count_eq_ok_iff {n : Int64} (value : Value) :
    count.result [value] = .ok (.num n) ↔ ∃ k : Nat, size value = .ok k ∧ n.toInt = k := by
  simp only [result, unary]
  cases size value with
  | error error =>
    constructor
    · intro counted
      cases counted
    · rintro ⟨k, counted, -⟩
      cases counted
  | ok k =>
    rw [ok_bind]
    simp only [Except.ok.injEq, exists_eq_left', ← Number.ofInt?_eq_some_iff]
    -- The word is taken as it comes: to compute with its bound would take forever.
    generalize Number.ofInt? k = counted
    cases counted <;> simp

/-- A value that has a size is empty just if this is zero. -/
theorem hasNone_of_size (counted : size value = .ok n) : hasNone value = .ok (n == 0) := by
  cases value with
  | nil => cases counted; rfl
  | list items => cases counted; cases items <;> rfl
  | vec items => cases counted; cases items <;> rfl
  | map origin entries => cases counted; cases entries <;> rfl
  | pair car cdr =>
    simp only [size] at counted
    split at counted
    · next found =>
      obtain ⟨others, -, rfl⟩ := Option.map_eq_some_iff.1 found
      cases counted
      rfl
    · cases counted
  | _ => cases counted

/-! ### Taking apart and putting together -/

theorem exists_cons (first second : Value) : ∃ built, cons.result [first, second] = .ok built ∧
    car.result [built] = .ok first ∧ cdr.result [built] = .ok second := by
  cases second <;> exact ⟨_, rfl, rfl, rfl⟩

/-- Whatever has a first part has a remainder, and the two make up an equal value. -/
theorem rebuilt (first : car.result [value] = .ok item) : ∃ further built,
    cdr.result [value] = .ok further ∧ cons.result [item, further] = .ok built ∧
      built.equals value = true := by
  cases value with
  | pair car cdr =>
    cases first
    obtain ⟨built, made, -⟩ := exists_cons item cdr
    refine ⟨cdr, built, rfl, made, ?_⟩
    cases cdr with
    | list items =>
      -- A list takes the place of a pair in front of a list.
      cases made
      have listed := equals_self (.list (item :: items))
      rw [equals_eq] at listed ⊢
      exact listed
    | _ =>
      cases made
      exact equals_self _
  | list items =>
    cases items with
    | nil => cases first
    | cons head items =>
      cases first
      exact ⟨.list items, .list (item :: items), rfl, rfl, equals_self _⟩
  | _ => cases first

theorem car_eq_ok_iff (value : Value) :
    (∃ item, car.result [value] = .ok item) ↔ isPair.result [value] = .ok (.bool true) := by
  cases value with
  | pair car cdr => exact ⟨fun _ => rfl, fun _ => ⟨car, rfl⟩⟩
  | list items =>
    cases items with
    | nil => exact ⟨nofun, nofun⟩
    | cons item items => exact ⟨fun _ => rfl, fun _ => ⟨item, rfl⟩⟩
  | _ => exact ⟨nofun, nofun⟩

end Primitive

open Primitive

/-- Every value for which `list?` answers yes has elements. A walk along it visits them in order and stops
where `empty?` says yes, after as many steps as are counted; it is printed like the list of its elements,
and is equal to this list. What `cons` makes of two values is taken apart into these two. A value has a
`car` just if `pair?` says yes, and what `cons` makes of its `car` and its `cdr` is equal to it. Whatever
is counted is empty just if the count is zero. -/
theorem lists_are_walked_as_they_are_counted :
    (∀ value, isList.result [value] = .ok (.bool true) → ∃ items last,
      value.items? = some items ∧ Walk value items last ∧
        isEmpty.result [last] = .ok (.bool true) ∧
        (∀ visited last', Walk value visited last' → visited = items ∧ last' = last) ∧
        (∀ n : Int64, count.result [value] = .ok (.num n) ↔ n.toInt = items.length) ∧
        value.print = (Value.list items).print ∧ value.equals (.list items) = true) ∧
    (∀ first second, ∃ built, cons.result [first, second] = .ok built ∧
      car.result [built] = .ok first ∧ cdr.result [built] = .ok second) ∧
    (∀ value, ((∃ item, car.result [value] = .ok item) ↔
        isPair.result [value] = .ok (.bool true)) ∧
      ∀ item, car.result [value] = .ok item → ∃ further built,
        cdr.result [value] = .ok further ∧ cons.result [item, further] = .ok built ∧
          built.equals value = true) ∧
    ∀ value (n : Int64), count.result [value] = .ok (.num n) →
      isEmpty.result [value] = .ok (.bool (n == 0)) := by
  refine ⟨fun value listed => ?_, exists_cons, fun value => ⟨car_eq_ok_iff value, ?_⟩, ?_⟩
  · have listed : listLike value = true := by simpa [result, unary] using listed
    obtain ⟨items, found, chained⟩ := exists_items_of_listLike listed
    obtain ⟨last, walk⟩ := exists_walk chained
    refine ⟨items, last, found, walk, walk.isEmpty_last, fun _ _ => walk.unique, fun n => ?_,
      print_items listed found, equals_items found⟩
    rw [count_eq_ok_iff, size_of_listLike listed found]
    simp
  · exact fun item first => rebuilt first
  · intro value n counted
    obtain ⟨k, sized, same⟩ := (count_eq_ok_iff value).1 counted
    have zero : (n == 0) = (k == 0) := by
      rw [Bool.eq_iff_iff, beq_iff_eq, beq_iff_eq, ← Int64.toInt_inj, same]
      exact Int.natCast_eq_zero
    simp only [result, unary, hasNone_of_size sized, zero]
    rfl

/-- Two pairs in front of a list. -/
theorem lists_are_walked_as_they_are_counted_chain :
    Walk (.pair (.num 1) (.pair (.num 2) (.list [.num 3]))) [.num 1, .num 2, .num 3] (.list []) ∧
      count.result [.pair (.num 1) (.pair (.num 2) (.list [.num 3]))] = .ok (.num 3) ∧
      Value.print (.pair (.num 1) (.pair (.num 2) (.list [.num 3]))) =
        Value.print (.list [.num 1, .num 2, .num 3]) ∧
      isEmpty.result [.pair (.num 1) (.pair (.num 2) (.list [.num 3]))] = .ok (.bool false) := by
  obtain ⟨lists, -, -, counts⟩ := lists_are_walked_as_they_are_counted
  obtain ⟨items, last, found, walk, -, only, counted, printed, -⟩ :=
    lists (.pair (.num 1) (.pair (.num 2) (.list [.num 3]))) rfl
  cases found
  have three := (counted 3).2 rfl
  have walked : Walk (.pair (.num 1) (.pair (.num 2) (.list [.num 3]))) [.num 1, .num 2, .num 3]
      (.list []) := .step rfl rfl rfl (.step rfl rfl rfl (walk_list [.num 3]))
  exact ⟨walked, three, printed, counts _ 3 three⟩

end MiniLisp
