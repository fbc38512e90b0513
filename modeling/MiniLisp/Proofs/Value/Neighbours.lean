import Mathlib
import MiniLisp.Eval.Evaluate
import MiniLisp.Proofs.Value.Equality

/-! Comparing neighbours. The primitive for equality compares each argument with the next one only.
That is enough to compare all of them where equality is transitive, which it is for values without
repeated keys in their maps and without chains of pairs that end in a vector. -/

namespace MiniLisp

namespace Value

/-- No map in the value, at any depth, has a key that is equal to a later one. -/
def DistinctKeys (value : Value) : Prop :=
  ∀ origin (entries : Entries), Contains value (map origin entries) →
    entries.Pairwise fun entry later => entry.1.equals later.1 = false

/-- No chain of pairs in the value, at any depth, ends in a vector. -/
def ProperEnds (value : Value) : Prop := ∀ car items, ¬ Contains value (pair car (vec items))

theorem DistinctKeys.part {inner : Value} (distinct : DistinctKeys value)
    (part : Contains value inner) : DistinctKeys inner :=
  fun origin entries held => distinct origin entries (part.trans held)

theorem ProperEnds.part {inner : Value} (ends : ProperEnds value)
    (part : Contains value inner) : ProperEnds inner :=
  fun car items chain => ends car items (part.trans chain)

/-- Keys that are not equal have different forms. The keys of a map are smaller than the map, so
this is known of the keys themselves before it is needed to compare them. -/
theorem separated (distinct : DistinctKeys value) (ends : ProperEnds value) : Separated value := by
  induction total : sizeOf value using Nat.strong_induction_on generalizing value with
  | _ total ih =>
  subst total
  have inside : ∀ {inner}, inner ∈ children value → Separated inner := by
    intro inner held
    have part : Contains value inner := .of_mem_children held
    exact ih _ (sizeOf_children held) (distinct.part part) (ends.part part) rfl
  refine ⟨ends, ?_⟩
  intro origin entries held
  rcases contains_iff.1 held with rfl | ⟨inner, child, held⟩
  · rw [List.Nodup, List.pairwise_map]
    refine (distinct origin entries .self).imp_of_mem ?_
    intro entry later member member' apart same
    have first := inside (mem_children_map origin member).1
    have second := inside (mem_children_map origin member').1
    rw [(equals_iff_canonical first second).2 same] at apart
    cases apart
  · exact (inside child).keys origin entries held

end Value

open Value

/-- Neighbours are equal all along if and only if all values have the form of the first. -/
theorem chained_equals_iff (separated : ∀ item ∈ first :: others, Separated item) :
    Primitive.chained Value.equals (first :: others) = true ↔
      ∀ item ∈ others, first.canonical = item.canonical := by
  induction others generalizing first with
  | nil => simp [Primitive.chained]
  | cons second others ih =>
    have rest := ih fun item member => separated item (List.mem_cons_of_mem _ member)
    have here := equals_iff_canonical (separated first List.mem_cons_self)
      (separated second (List.mem_cons_of_mem _ List.mem_cons_self))
    rw [Primitive.chained, Bool.and_eq_true, rest, here, List.forall_mem_cons]
    constructor
    · rintro ⟨same, all⟩
      exact ⟨same, fun item member => same.trans (all item member)⟩
    · rintro ⟨same, all⟩
      exact ⟨same, fun item member => same.symm.trans (all item member)⟩

/-- Without repeated keys and without chains of pairs that end in a vector, equality is transitive,
and the primitive says yes to one or more arguments if and only if every two of them are equal. -/
theorem equality_of_neighbours :
    (∀ a b c : Value, DistinctKeys a → DistinctKeys b → DistinctKeys c →
      ProperEnds a → ProperEnds b → ProperEnds c →
        a.equals b = true → b.equals c = true → a.equals c = true) ∧
    ∀ arguments : List Value, arguments ≠ [] →
      (∀ argument ∈ arguments, DistinctKeys argument ∧ ProperEnds argument) →
        (Primitive.equal.result arguments = .ok (.bool true) ↔
          ∀ a ∈ arguments, ∀ b ∈ arguments, a.equals b = true) := by
  refine ⟨?_, ?_⟩
  · intro a b c keys keys' keys'' ends ends' ends'' first second
    have sep := separated keys ends
    have sep' := separated keys' ends'
    have sep'' := separated keys'' ends''
    rw [equals_iff_canonical sep sep'] at first
    rw [equals_iff_canonical sep' sep''] at second
    rw [equals_iff_canonical sep sep'']
    exact first.trans second
  · intro arguments some each
    have sep : ∀ argument ∈ arguments, Separated argument := fun argument member =>
      separated (each argument member).1 (each argument member).2
    cases arguments with
    | nil => exact (some rfl).elim
    | cons first others =>
      have chained := chained_equals_iff sep
      have result : Primitive.equal.result (first :: others) =
          .ok (.bool (Primitive.chained Value.equals (first :: others))) := rfl
      rw [result, Except.ok.injEq, Value.bool.injEq, chained]
      constructor
      · intro same a member b member'
        have form : ∀ item ∈ first :: others, first.canonical = item.canonical := by
          intro item member
          rcases List.mem_cons.1 member with rfl | member
          · rfl
          · exact same item member
        rw [equals_iff_canonical (sep a member) (sep b member')]
        exact (form a member).symm.trans (form b member')
      · intro all item member
        have member' := List.mem_cons_of_mem first member
        exact (equals_iff_canonical (sep first List.mem_cons_self) (sep item member')).1
          (all first List.mem_cons_self item member')

/-- A list, a vector and a chain of pairs with the same element. -/
theorem equality_of_neighbours_single :
    (list [num 1]).equals (pair (num 1) nil) = true ∧
      Primitive.equal.result [list [num 1], vec [num 1], pair (num 1) nil] = .ok (.bool true) := by
  have keys : DistinctKeys (list [num 1]) ∧ DistinctKeys (vec [num 1]) ∧
      DistinctKeys (pair (num 1) nil) := by
    simp [DistinctKeys, contains_list, contains_vec, contains_pair, contains_num, contains_nil]
  have ends : ProperEnds (list [num 1]) ∧ ProperEnds (vec [num 1]) ∧
      ProperEnds (pair (num 1) nil) := by
    simp [ProperEnds, contains_list, contains_vec, contains_pair, contains_num, contains_nil]
  obtain ⟨listKeys, vecKeys, pairKeys⟩ := keys
  obtain ⟨listEnds, vecEnds, pairEnds⟩ := ends
  obtain ⟨transitive, neighbours⟩ := equality_of_neighbours
  have outer : (list [num 1]).equals (pair (num 1) nil) = true :=
    transitive _ (vec [num 1]) _ listKeys vecKeys pairKeys listEnds vecEnds pairEnds
      (by cbv) (by cbv)
  refine ⟨outer, (neighbours _ (by simp) ?_).2 ?_⟩
  · simp [listKeys, vecKeys, pairKeys, listEnds, vecEnds, pairEnds]
  · simp only [List.mem_cons, List.not_mem_nil, or_false]
    rintro a (rfl | rfl | rfl) b (rfl | rfl | rfl) <;> cbv

/-- Values of three programs, without any map. The first is a pair before a vector. It equals the
second, a chain of two pairs, part by part; the second equals the third, a list, as a sequence; but
the first is no sequence and does not equal the third. The primitive does not notice. -/
theorem equality_not_transitive :
    ((evaluate 3 0 (list [sym ⟨"cons"⟩, num 1, vec [num 2]])).run.run Store.initial).1 =
        .ok (pair (num 1) (vec [num 2])) ∧
      ((evaluate 3 0 (list [sym ⟨"cons"⟩, num 1, list [sym ⟨"cons"⟩, num 2, nil]])).run.run
        Store.initial).1 = .ok (pair (num 1) (pair (num 2) nil)) ∧
      ((evaluate 3 0 (list [sym ⟨"list"⟩, num 1, num 2])).run.run Store.initial).1 =
        .ok (list [num 1, num 2]) ∧
      DistinctKeys (pair (num 1) (vec [num 2])) ∧ DistinctKeys (pair (num 1) (pair (num 2) nil)) ∧
      DistinctKeys (list [num 1, num 2]) ∧
      (pair (num 1) (vec [num 2])).equals (pair (num 1) (pair (num 2) nil)) = true ∧
      (pair (num 1) (pair (num 2) nil)).equals (list [num 1, num 2]) = true ∧
      (pair (num 1) (vec [num 2])).equals (list [num 1, num 2]) = false ∧
      Primitive.equal.result [pair (num 1) (vec [num 2]), pair (num 1) (pair (num 2) nil),
        list [num 1, num 2]] = .ok (.bool true) := by
  refine ⟨by cbv, by cbv, by cbv, ?_, ?_, ?_, by cbv, by cbv, by cbv, by cbv⟩ <;>
    simp [DistinctKeys, contains_list, contains_vec, contains_pair, contains_num, contains_nil]

end MiniLisp
