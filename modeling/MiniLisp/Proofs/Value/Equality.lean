import MiniLisp.Proofs.Value.Canonical
import MiniLisp.Value.Entries

/-! Equality by canonical forms. Values are equal if and only if their canonical forms are, unless
some map in them has two keys of one form or some chain of pairs ends in a vector. Such a chain is
compared pair by pair with other chains, but is no sequence, so it can equal a chain that equals a
list without being equal to the list. -/

namespace MiniLisp

namespace Value

/-! ### The elements of a sequence are parts -/

theorem Contains.of_chainItems (found : chainItems? value = some items) (held : item ∈ items) :
    Contains value item := by
  induction value generalizing items with
  | nil =>
    cases found
    cases held
  | list =>
    cases found
    exact .of_mem_children held
  | pair car cdr _ ih =>
    obtain ⟨others, rest, rfl⟩ := Option.map_eq_some_iff.1 found
    rcases List.mem_cons.1 held with rfl | held
    · exact .of_mem_children List.mem_cons_self
    · exact .child (List.mem_cons_of_mem _ List.mem_cons_self) (ih rest held)
  | _ => cases found

theorem Contains.of_items (found : items? value = some items) (held : item ∈ items) :
    Contains value item := by
  cases value with
  | list =>
    cases found
    exact .of_mem_children held
  | vec =>
    cases found
    exact .of_mem_children held
  | pair => exact .of_chainItems found held
  | _ => cases found

/-! ### Lists and maps are compared part by part -/

theorem equalsAll_iff {items items' : List Value}
    (agree : ∀ item ∈ items, ∀ item' ∈ items',
      item.equals item' = true ↔ item.canonical = item'.canonical) :
    equalsAll items items' = true ↔ items.map canonical = items'.map canonical := by
  induction items generalizing items' with
  | nil =>
    cases items' with
    | nil => simp [equalsAll_nil]
    | cons => simp [equalsAll, comparisonAll]
  | cons item items ih =>
    cases items' with
    | nil => simp [equalsAll, comparisonAll]
    | cons item' items' =>
      have first := agree item List.mem_cons_self item' List.mem_cons_self
      have others := ih fun other member other' member' =>
        agree other (List.mem_cons_of_mem _ member) other' (List.mem_cons_of_mem _ member')
      rw [equalsAll_cons, Bool.and_eq_true, first, others, List.map_cons, List.map_cons,
        List.cons.injEq]

theorem answer?_eq_none_iff {entries : Entries} {key value : Value} :
    answer? entries key value = none ↔ ∀ entry ∈ entries, entry.1.equals key = false := by
  induction entries with
  | nil => simp [answer?_nil]
  | cons entry entries ih =>
    rw [answer?_cons]
    cases found : answer? entries key value with
    | some answer =>
      rw [found] at ih
      have one : ¬ ∀ entry ∈ entries, entry.1.equals key = false := fun none => by
        cases ih.2 none
      simp only [reduceCtorEq, List.mem_cons, forall_eq_or_imp, false_iff, not_and]
      exact fun _ => one
    | none =>
      have others := ih.1 found
      cases same : entry.1.equals key with
      | true => simp [same]
      | false => simpa [same] using others

/-- Entries with keys of different forms answer yes exactly to what they hold, up to forms. -/
theorem answer?_eq_true_iff {entries : Entries} {key value : Value}
    (agree : ∀ entry ∈ entries, (entry.1.equals key = true ↔ entry.1.canonical = key.canonical) ∧
      (entry.2.equals value = true ↔ entry.2.canonical = value.canonical))
    (distinct : (entries.map fun entry => entry.1.canonical).Nodup) :
    answer? entries key value = some true ↔
      (key.canonical, value.canonical) ∈ entries.map canonicalEntry := by
  induction entries with
  | nil => simp [answer?_nil]
  | cons entry entries ih =>
    obtain ⟨new, distinct⟩ := List.nodup_cons.1 distinct
    obtain ⟨sameKey, sameValue⟩ := agree entry List.mem_cons_self
    have agree := fun other member => agree other (List.mem_cons_of_mem entry member)
    have others := ih agree distinct
    rw [answer?_cons, List.map_cons, List.mem_cons]
    cases found : answer? entries key value with
    | some answer =>
      -- A later key has the form asked for, so this one has another.
      have other : entry.1.canonical ≠ key.canonical := by
        intro same
        have absent : answer? entries key value = none := by
          refine answer?_eq_none_iff.2 fun later member => ?_
          rw [Bool.eq_false_iff, Ne, (agree later member).1, ← same]
          intro again
          exact new (List.mem_map.2 ⟨later, member, again⟩)
        rw [absent] at found
        cases found
      rw [found] at others
      rw [← others]
      simp [canonicalEntry, other.symm]
    | none =>
      have apart : (key.canonical, value.canonical) ∉ entries.map canonicalEntry := by
        rw [← others, found]
        simp
      simp only [apart, or_false, canonicalEntry, Prod.mk.injEq]
      cases same : entry.1.equals key with
      | true =>
        have keys : entry.1.canonical = key.canonical := sameKey.1 same
        simp only [↓reduceIte, Option.some.injEq, sameValue, keys, true_and]
        exact eq_comm
      | false =>
        have other : entry.1.canonical ≠ key.canonical := by
          intro keys
          rw [sameKey.2 keys] at same
          cases same
        simp [other.symm]

theorem answersAll_iff {entries asked : Entries} : answersAll entries asked = true ↔
    ∀ entry ∈ asked, answer? entries entry.1 entry.2 = some true := by
  induction asked with
  | nil => simp [answersAll]
  | cons entry asked ih =>
    obtain ⟨key, value⟩ := entry
    rw [answersAll, Bool.and_eq_true, beq_iff_eq, ih]
    simp

/-- Entries with keys of different forms on both sides have equal contents if and only if they make
up the same set of forms. -/
theorem contents_iff {entries entries' : Entries}
    (agree : ∀ entry ∈ entries, ∀ entry' ∈ entries',
      (entry'.1.equals entry.1 = true ↔ entry'.1.canonical = entry.1.canonical) ∧
        (entry'.2.equals entry.2 = true ↔ entry'.2.canonical = entry.2.canonical))
    (distinct : (entries.map fun entry => entry.1.canonical).Nodup)
    (distinct' : (entries'.map fun entry => entry.1.canonical).Nodup) :
    entries.length = entries'.length ∧ answersAll entries' entries = true ↔
      ∀ form, form ∈ entries.map canonicalEntry ↔ form ∈ entries'.map canonicalEntry := by
  have forms : (entries.map canonicalEntry).Nodup := by
    refine List.Nodup.of_map Prod.fst ?_
    rwa [List.map_map]
  have forms' : (entries'.map canonicalEntry).Nodup := by
    refine List.Nodup.of_map Prod.fst ?_
    rwa [List.map_map]
  have found : answersAll entries' entries = true ↔
      ∀ entry ∈ entries, canonicalEntry entry ∈ entries'.map canonicalEntry := by
    rw [answersAll_iff]
    refine forall₂_congr fun entry member => ?_
    exact answer?_eq_true_iff (agree entry member) distinct'
  rw [found]
  constructor
  · rintro ⟨many, held⟩
    have inside : entries.map canonicalEntry ⊆ entries'.map canonicalEntry := by
      intro form member
      obtain ⟨entry, here, rfl⟩ := List.mem_map.1 member
      exact held entry here
    -- So many different forms among as many forms are all of them.
    have all := (List.subperm_of_subset forms inside).perm_of_length_le (by simp [many])
    exact fun form => all.mem_iff
  · intro same
    have all := (List.perm_ext_iff_of_nodup forms forms').2 same
    refine ⟨by simpa using all.length_eq, ?_⟩
    intro entry member
    exact (same _).1 (List.mem_map.2 ⟨entry, member, rfl⟩)

/-! ### Equality is equality of forms -/

/-- Values without a chain of pairs that ends in a vector, and without a map that has two keys of
one form, at any depth. -/
structure Separated (value : Value) : Prop where
  chains : ∀ car items, ¬ Contains value (pair car (vec items))
  keys : ∀ origin entries, Contains value (map origin entries) →
    (entries.map fun entry => entry.1.canonical).Nodup

theorem Separated.part {inner : Value} (separated : Separated value)
    (part : Contains value inner) : Separated inner :=
  ⟨fun car items chain => separated.chains car items (part.trans chain),
    fun origin entries held => separated.keys origin entries (part.trans held)⟩

/-- In a chain of pairs that does not end in a vector, the form of what follows a pair tells whether
the pair is part of a sequence. -/
theorem chainItems?_isSome_of_canonical (same : cdr.canonical = cdr'.canonical)
    (chains : ∀ items, cdr' ≠ vec items) (found : chainItems? cdr = some items) :
    (chainItems? cdr').isSome := by
  have formed := shape cdr
  have formed' := shape cdr'
  rw [← same] at formed'
  generalize cdr.canonical = form at formed formed'
  cases formed with
  | scalar =>
    cases formed' with
    | scalar => rw [found]; rfl
  | sequence =>
    cases formed' with
    | sequence found' =>
      cases cdr' with
      | list => rfl
      | vec items => exact (chains items rfl).elim
      | pair car cdr => exact Option.isSome_iff_exists.2 ⟨_, found'⟩
      | _ => cases found'
  | @improper _ _ car cdr apart =>
    have absent : chainItems? (pair car cdr) = none := Option.map_eq_none_iff.2 apart
    rw [absent] at found
    cases found
  | map => cases found
  | closure => cases found

/-- The chains of two pairs with agreeing parts are both sequences or both improper. -/
theorem canonical_pair_congr (first : car.canonical = car'.canonical)
    (second : cdr.canonical = cdr'.canonical) (chains : ∀ items, cdr ≠ vec items)
    (chains' : ∀ items, cdr' ≠ vec items)
    (apart : ∀ items items', items? (pair car cdr) = some items →
      items? (pair car' cdr') = some items' → False) :
    (pair car cdr).canonical = (pair car' cdr').canonical := by
  have both : ∀ {items items'}, chainItems? cdr = some items → chainItems? cdr' = some items' →
      False := fun found found' =>
    apart _ _ (congrArg (Option.map (car :: ·)) found) (congrArg (Option.map (car' :: ·)) found')
  have improper : chainItems? cdr = none ∧ chainItems? cdr' = none := by
    refine ⟨Option.eq_none_iff_forall_ne_some.2 ?_, Option.eq_none_iff_forall_ne_some.2 ?_⟩
    · intro items found
      have other := chainItems?_isSome_of_canonical second chains' found
      obtain ⟨items', found'⟩ := Option.isSome_iff_exists.1 other
      exact both found found'
    · intro items found'
      have other := chainItems?_isSome_of_canonical second.symm chains found'
      obtain ⟨items', found⟩ := Option.isSome_iff_exists.1 other
      exact both found found'
  rw [canonical_improper improper.1, canonical_improper improper.2, first, second]

theorem canonical_map_congr {entries entries' : Entries} (origin origin' : Origin)
    (same : ∀ form, form ∈ entries.map canonicalEntry ↔ form ∈ entries'.map canonicalEntry) :
    (map origin entries).canonical = (map origin' entries').canonical := by
  classical
  have sets : (entries.map canonicalEntry).toFinset = (entries'.map canonicalEntry).toFinset := by
    ext form
    rw [List.mem_toFinset, List.mem_toFinset, same]
  rw [canonical_map, canonical_map, sets]

/-- Equality tells by the forms of two values, whichever is compared with the other. -/
def Agree (left right : Value) : Prop :=
  (left.equals right = true ↔ left.canonical = right.canonical) ∧
    (right.equals left = true ↔ right.canonical = left.canonical)

/-- What is known of smaller values when two values are compared. -/
def PartsAgree (left right : Value) : Prop :=
  ∀ part part', Contains left part → Contains right part' →
    sizeOf part + sizeOf part' < sizeOf left + sizeOf right → Agree part part'

namespace PartsAgree

theorem children (agree : PartsAgree left right) (held : item ∈ left.children)
    (held' : item' ∈ right.children) : Agree item item' := by
  have smaller := sizeOf_children held
  have smaller' := sizeOf_children held'
  exact agree item item' (.of_mem_children held) (.of_mem_children held') (by omega)

theorem elements (agree : PartsAgree left right) (found : items? left = some items)
    (found' : items? right = some items') :
    equalsAll items items' = true ↔ items.map canonical = items'.map canonical := by
  refine equalsAll_iff fun item held item' held' => ?_
  have smaller := List.sizeOf_lt_of_mem held
  have smaller' := List.sizeOf_lt_of_mem held'
  have bound := sizeOf_items found
  have bound' := sizeOf_items found'
  exact (agree item item' (.of_items found held) (.of_items found' held') (by omega)).1

theorem pairs (agree : PartsAgree (pair car cdr) (pair car' cdr')) :
    Agree car car' ∧ Agree cdr cdr' := by
  have cdrs : cdr ∈ (pair car cdr).children := List.mem_cons_of_mem _ List.mem_cons_self
  have cdrs' : cdr' ∈ (pair car' cdr').children := List.mem_cons_of_mem _ List.mem_cons_self
  exact ⟨agree.children List.mem_cons_self List.mem_cons_self, agree.children cdrs cdrs'⟩

theorem contents {entries entries' : Entries}
    (agree : PartsAgree (map origin entries) (map origin' entries'))
    (separated : Separated (map origin entries)) (separated' : Separated (map origin' entries')) :
    entries.length = entries'.length ∧ answersAll entries' entries = true ↔
      ∀ form, form ∈ entries.map canonicalEntry ↔ form ∈ entries'.map canonicalEntry := by
  refine contents_iff ?_ (separated.keys origin entries .self)
    (separated'.keys origin' entries' .self)
  intro entry member entry' member'
  have held := mem_children_map origin member
  have held' := mem_children_map origin' member'
  exact ⟨(agree.children held.1 held'.1).2, (agree.children held.2 held'.2).2⟩

theorem canonical_eq (agree : PartsAgree left right) (separated : Separated left)
    (separated' : Separated right) (same : left.equals right = true) :
    left.canonical = right.canonical := by
  rw [equals_eq] at same
  split at same
  · next found found' =>
    rw [canonical_sequence found, canonical_sequence found']
    exact congrArg Canonical.sequence ((agree.elements found found').1 same)
  · next apart =>
    split at same
    · next car cdr car' cdr' =>
      rw [Bool.and_eq_true] at same
      have first := agree.pairs.1.1.1 same.1
      have second := agree.pairs.2.1.1 same.2
      refine canonical_pair_congr first second ?_ ?_ apart
      · rintro items rfl
        exact separated.chains car items .self
      · rintro items rfl
        exact separated'.chains car' items .self
    · next origin entries origin' entries' =>
      rw [Bool.or_eq_true] at same
      rcases same with same | same
      · -- The shortcut for one and the same map.
        have whole : map origin entries = map origin' entries' :=
          (identical_iff _ _).1 (by rwa [identical])
        rw [whole]
      · rw [Bool.and_eq_true, beq_iff_eq] at same
        have forms := (agree.contents separated separated').1 same
        exact canonical_map_congr origin origin' forms
    · next serial _ _ _ serial' _ _ _ =>
      rw [canonical_closure, canonical_closure, beq_iff_eq.1 same]
    · rw [(identical_iff _ _).1 same]

/-- Values of one form are of one shape, so one case is left for each kind of value. -/
theorem equals_of_canonical_eq (agree : PartsAgree left right) (separated : Separated left)
    (separated' : Separated right) (same : left.canonical = right.canonical) :
    left.equals right = true := by
  have formed := shape left
  have formed' := shape right
  rw [← same] at formed'
  generalize left.canonical = form at formed formed'
  rw [equals_eq]
  cases formed with
  | sequence found forms =>
    cases formed' with
    | sequence found' forms' =>
      simp only [found, found']
      exact (agree.elements found found').2 (forms.trans forms'.symm)
  | @improper _ _ car cdr apart first second =>
    cases formed' with
    | improper apart' first' second' =>
      have absent : items? (pair car cdr) = none := Option.map_eq_none_iff.2 apart
      obtain ⟨cars, cdrs⟩ := agree.pairs
      simp only [absent, Bool.and_eq_true]
      exact ⟨cars.1.2 (first.trans first'.symm), cdrs.1.2 (second.trans second'.symm)⟩
  | map forms =>
    cases formed' with
    | map forms' =>
      have held := (agree.contents separated separated').2 fun form =>
        (forms form).symm.trans (forms' form)
      simp [items?, held]
  | closure =>
    cases formed' with
    | closure => simp [items?]
  | scalar =>
    cases formed' with
    | scalar =>
      rw [← equals_eq]
      exact equals_self _

end PartsAgree

/-- Two values without mixed-up maps or chains are equal if and only if their forms are. The
induction is on the size of both values together, since look-up in a map turns the sides around. -/
theorem equals_iff_canonical (separated : Separated left) (separated' : Separated right) :
    left.equals right = true ↔ left.canonical = right.canonical := by
  induction total : sizeOf left + sizeOf right using Nat.strong_induction_on
    generalizing left right with
  | _ total ih =>
  subst total
  have agree : PartsAgree left right := by
    intro part part' held held' smaller
    have swapped : sizeOf part' + sizeOf part < sizeOf left + sizeOf right := by omega
    exact ⟨ih _ smaller (separated.part held) (separated'.part held') rfl,
      ih _ swapped (separated'.part held') (separated.part held) rfl⟩
  constructor
  · intro same
    exact agree.canonical_eq separated separated' same
  · intro same
    exact agree.equals_of_canonical_eq separated separated' same

/-- What the form of a value keeps of it: the content of a scalar, the name of a primitive, the number
of a closure, the forms of the elements of a sequence in order, the forms along a chain of pairs that
is no sequence with the form of its tail last, and the set of the forms of the entries of a map. -/
structure KeepsContent (form : Value → Canonical) : Prop where
  scalar : IsScalar value → form value = .scalar value
  named : form (prim primitive) = form (prim primitive') ↔ primitive.name = primitive'.name
  closure : form (closure serial params body scope) = .closure serial
  list : form (list items) = .sequence (items.map form)
  vec : form (vec items) = .sequence (items.map form)
  proper : cars ≠ [] → chainItems? tail = some items →
    form (chain cars tail) = .sequence ((cars ++ items).map form)
  improper : chainItems? tail = none →
    form (chain cars tail) = cars.foldr (fun car rest => .improper (form car) rest) (form tail)
  mapping (origin : Origin) (entries : Entries) : ∃ forms, form (map origin entries) = .map forms ∧
    forms.Nodup ∧ ∀ pair, pair ∈ forms ↔ pair ∈ entries.map fun entry => (form entry.1, form entry.2)
  order {entries entries' : Entries} (origin origin' : Origin) :
    (∀ pair, pair ∈ entries.map (fun entry => (form entry.1, form entry.2)) ↔
      pair ∈ entries'.map fun entry => (form entry.1, form entry.2)) →
      form (map origin entries) = form (map origin' entries')

theorem canonical_keepsContent : KeepsContent canonical where
  scalar := canonical_scalar
  named {primitive primitive'} := by
    have scalar : ∀ p, (prim p).canonical = .scalar (prim p) := fun _ => canonical_scalar trivial
    rw [scalar, scalar, Canonical.scalar.injEq, prim.injEq]
    exact Primitive.name_injective.eq_iff.symm
  closure := canonical_closure _ _ _ _
  list := canonical_sequence rfl
  vec := canonical_sequence rfl
  proper := canonical_chain
  improper := canonical_chain_improper _
  mapping origin entries := by
    classical
    refine ⟨_, canonical_map origin entries, Finset.nodup_toList _, fun pair => ?_⟩
    rw [Finset.mem_toList, List.mem_toFinset]
    rfl
  order := canonical_map_congr

/-- Equality is equality of canonical forms, for any two values without mixed-up maps or chains. -/
theorem equality_is_equality_of_forms :
    KeepsContent canonical ∧ ∀ left right : Value, Separated left → Separated right →
      (left.equals right = true ↔ left.canonical = right.canonical) :=
  ⟨canonical_keepsContent, fun _ _ separated separated' =>
    equals_iff_canonical separated separated'⟩

/-- Two maps with the same entries in another order, where a list holds what a chain of pairs holds. -/
theorem equality_is_equality_of_forms_maps :
    Separated (map (.made 0) [(str "a", list [num 1]), (str "b", pair (num 1) (num 2))]) ∧
      Separated (map (.made 1) [(str "b", pair (num 1) (num 2)), (str "a", pair (num 1) nil)]) ∧
      (map (.made 0) [(str "a", list [num 1]), (str "b", pair (num 1) (num 2))]).canonical =
        (map (.made 1) [(str "b", pair (num 1) (num 2)), (str "a", pair (num 1) nil)]).canonical := by
  have key : ∀ text, (str text).canonical = .scalar (str text) := fun _ => canonical_scalar trivial
  have first : Separated
      (map (.made 0) [(str "a", list [num 1]), (str "b", pair (num 1) (num 2))]) := by
    constructor <;>
      simp [contains_map, contains_list, contains_pair, contains_num, contains_str, key]
  have second : Separated
      (map (.made 1) [(str "b", pair (num 1) (num 2)), (str "a", pair (num 1) nil)]) := by
    constructor <;>
      simp [contains_map, contains_pair, contains_num, contains_str, contains_nil, key]
  obtain ⟨-, equality⟩ := equality_is_equality_of_forms
  exact ⟨first, second, (equality _ _ first second).1 (by cbv)⟩

end Value

end MiniLisp
