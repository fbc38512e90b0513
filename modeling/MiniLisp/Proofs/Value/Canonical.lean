import Mathlib.Data.Finset.Dedup
import MiniLisp.Proofs.Value.Parts

/-! Canonical forms. The canonical form of a value forgets what equality does not look at: whether a
list, a vector or a chain of pairs holds the elements of a sequence, in which order a map holds its
entries, and everything about a closure but its number. -/

namespace MiniLisp

/-- What values are compared by. A chain of pairs that is no sequence has a form for each pair. The
entries of a map are those of a finite set, in some order that depends on the set alone. -/
inductive Canonical where
  | scalar (value : Value)
  | sequence (items : List Canonical)
  | improper (car cdr : Canonical)
  | map (entries : List (Canonical × Canonical))
  | closure (serial : Nat)

namespace Value

open Classical in
/-- The canonical form of a value. -/
noncomputable def canonical (value : Value) : Canonical :=
  match _found : value.items? with
  | some items => .sequence (items.attach.map fun item => canonical item.1)
  | none =>
    match value with
    | pair car cdr => .improper (canonical car) (canonical cdr)
    | map _ entries =>
      .map (entries.attach.map fun entry =>
        (canonical entry.1.1, canonical entry.1.2)).toFinset.toList
    | closure serial _ _ _ => .closure serial
    | value => .scalar value
termination_by sizeOf value
decreasing_by
  · have bound := sizeOf_items _found
    have smaller := List.sizeOf_lt_of_mem item.2
    omega
  · exact sizeOf_children List.mem_cons_self
  · exact sizeOf_children (List.mem_cons_of_mem _ List.mem_cons_self)
  · exact sizeOf_children (mem_children_map _ entry.2).1
  · exact sizeOf_children (mem_children_map _ entry.2).2

/-- The canonical forms of the key and the value of an entry. -/
noncomputable def canonicalEntry (entry : Value × Value) : Canonical × Canonical :=
  (entry.1.canonical, entry.2.canonical)

theorem canonical_sequence (found : items? value = some items) :
    value.canonical = .sequence (items.map canonical) := by
  rw [canonical]
  split
  · next items' found' =>
    have same : items' = items := Option.some.inj (found'.symm.trans found)
    rw [same, List.attach_map_val]
  · next absent =>
    rw [found] at absent
    cases absent

theorem canonical_improper (apart : chainItems? cdr = none) :
    (pair car cdr).canonical = .improper car.canonical cdr.canonical := by
  have absent : items? (pair car cdr) = none := Option.map_eq_none_iff.2 apart
  rw [canonical]
  split
  · next found =>
    rw [absent] at found
    cases found
  · rfl

open Classical in
theorem canonical_map (origin : Origin) (entries : Entries) : (map origin entries).canonical =
    .map (entries.map canonicalEntry).toFinset.toList := by
  have whole : entries.attach.map (fun entry =>
      (canonical entry.1.1, canonical entry.1.2)) = entries.map canonicalEntry :=
    @List.attach_map_val _ _ entries canonicalEntry
  rw [canonical]
  split
  · next found => cases found
  · dsimp only
    rw [whole]

/-- The values that are compared by their content alone, or by their name. -/
def IsScalar : Value → Prop
  | nil | bool _ | num _ | str _ | sym _ | prim _ => True
  | pair _ _ | list _ | vec _ | map _ _ | closure _ _ _ _ => False

theorem canonical_scalar (scalar : IsScalar value) : value.canonical = .scalar value := by
  cases value with
  | pair | list | vec | map | closure => exact scalar.elim
  | _ =>
    rw [canonical]
    rfl

theorem canonical_closure (serial : Nat) (params : Params) (body : Value) (scope : Nat) :
    (closure serial params body scope).canonical = .closure serial := by
  rw [canonical]
  rfl

/-! ### Chains of pairs -/

/-- A chain of pairs, one for each first part, that goes over into its tail. -/
def chain (cars : List Value) (tail : Value) : Value := cars.foldr pair tail

theorem chainItems?_chain (cars : List Value) (tail : Value) :
    chainItems? (chain cars tail) = (chainItems? tail).map (cars ++ ·) := by
  induction cars with
  | nil => simp [chain]
  | cons car cars ih =>
    have others : chainItems? (chain (car :: cars) tail) =
        (chainItems? (chain cars tail)).map (car :: ·) := rfl
    rw [others, ih, Option.map_map]
    rfl

theorem canonical_chain (nonempty : cars ≠ []) (found : chainItems? tail = some items) :
    (chain cars tail).canonical = .sequence ((cars ++ items).map canonical) := by
  cases cars with
  | nil => exact (nonempty rfl).elim
  | cons car cars =>
    have whole : items? (chain (car :: cars) tail) = chainItems? (chain (car :: cars) tail) := rfl
    rw [canonical_sequence]
    rw [whole, chainItems?_chain, found]
    rfl

theorem canonical_chain_improper (cars : List Value) (apart : chainItems? tail = none) :
    (chain cars tail).canonical =
      cars.foldr (fun car rest => .improper car.canonical rest) tail.canonical := by
  induction cars with
  | nil => rfl
  | cons car cars ih =>
    have further : chainItems? (chain cars tail) = none := by rw [chainItems?_chain, apart]; rfl
    rw [List.foldr_cons, ← ih]
    exact canonical_improper further

/-! ### Every kind of value has a kind of form -/

/-- A value beside its form, by what kind of value it is. -/
inductive Shape : Value → Canonical → Prop where
  | sequence (found : items? value = some items) (forms : items.map canonical = items') :
      Shape value (.sequence items')
  | improper {car cdr : Value} (apart : chainItems? cdr = none) (first : car.canonical = car')
      (second : cdr.canonical = cdr') : Shape (pair car cdr) (.improper car' cdr')
  | map {entries : Entries} (forms : ∀ form, form ∈ entries' ↔ form ∈ entries.map canonicalEntry) :
      Shape (map origin entries) (.map entries')
  | closure : Shape (closure serial params body scope) (.closure serial)
  | scalar : Shape value (.scalar value)

theorem shape (value : Value) : Shape value value.canonical := by
  classical
  cases found : value.items? with
  | some items =>
    rw [canonical_sequence found]
    exact .sequence found rfl
  | none =>
    cases value with
    | pair car cdr =>
      have apart : chainItems? cdr = none := Option.map_eq_none_iff.1 found
      rw [canonical_improper apart]
      exact .improper apart rfl rfl
    | map origin entries =>
      rw [canonical_map]
      refine .map ?_
      intro form
      rw [Finset.mem_toList, List.mem_toFinset]
    | list => cases found
    | vec => cases found
    | closure =>
      rw [canonical_closure]
      exact .closure
    | _ =>
      rw [canonical]
      exact .scalar

end Value

end MiniLisp
