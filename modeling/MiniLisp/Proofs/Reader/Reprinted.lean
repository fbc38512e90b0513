import MiniLisp.Proofs.Reader.RoundTrip
import MiniLisp.Proofs.Value.Listed
import MiniLisp.Proofs.Value.Neighbours

/-! Printing and reading values that were computed. Unlike a value that was read, such a value may hold
chains of pairs, also as keys of maps and inside them. Its printed form reads as a value without pairs.
The two are equal all the same, whichever is asked about the other. -/

namespace MiniLisp

open Value

/-- Values whose printed form can be read: data with symbols as the reader makes them, proper chains of
pairs, and maps without two equal keys. -/
inductive Printable : Value → Prop where
  | nil : Printable .nil
  | bool : Printable (.bool b)
  | num : Printable (.num n)
  | str : Printable (.str text)
  | sym {name : String} (atom : IsAtom name.toList)
      (symbolic : ∀ span, atomValue name span = .ok (.sym ⟨name⟩)) : Printable (.sym ⟨name⟩)
  | list (each : ∀ item ∈ items, Printable item) : Printable (.list items)
  | vec (each : ∀ item ∈ items, Printable item) : Printable (.vec items)
  | pair (first : Printable car) (second : Printable cdr) (proper : (chainItems? cdr).isSome) :
      Printable (.pair car cdr)
  | map {entries : Entries} (keys : ∀ entry ∈ entries, Printable entry.1)
      (values : ∀ entry ∈ entries, Printable entry.2)
      (distinct : entries.Pairwise fun entry later => entry.1.equals later.1 = false) :
      Printable (.map origin entries)

namespace Printable

theorem child (printable : Printable value) (held : item ∈ children value) : Printable item := by
  cases printable with
  | nil | bool | num | str | sym => cases held
  | list each => exact each item held
  | vec each => exact each item held
  | pair first second _ =>
    simp only [children, List.mem_cons, List.not_mem_nil, or_false] at held
    rcases held with rfl | rfl
    · exact first
    · exact second
  | map keys values _ =>
    obtain ⟨entry, member, rfl | rfl⟩ := Entries.mem_flat.1 held
    · exact keys entry member
    · exact values entry member

theorem part {inner : Value} (printable : Printable value) (held : Contains value inner) :
    Printable inner := by
  induction held with
  | self => exact printable
  | child held _ ih => exact ih (printable.child held)

theorem separated (printable : Printable value) : Separated value := by
  refine Value.separated ?_ ?_
  · intro origin entries held
    cases printable.part held with
    | map _ _ distinct => exact distinct
  · intro car items held
    cases printable.part held with
    | pair _ _ proper => cases proper

/-! ### What a printable value becomes -/

theorem readable_listed (printable : Printable value) : Readable value.listed := by
  induction printable with
  | nil => exact .nil
  | bool => exact .bool
  | num => exact .num
  | str => exact .str
  | sym atom symbolic => exact .sym atom symbolic
  | list _ ih =>
    rw [listed, listedAll_eq_map]
    exact .list (List.forall_mem_map.2 ih)
  | vec _ ih =>
    rw [listed, listedAll_eq_map]
    exact .vec (List.forall_mem_map.2 ih)
  | pair _ _ proper first second =>
    obtain ⟨items, found⟩ := Option.isSome_iff_exists.1 proper
    have others : ∀ item ∈ items.map Value.listed, Readable item := by
      rcases listed_of_chainItems found with ⟨-, rfl⟩ | same
      · exact List.forall_mem_nil _
      · rw [same] at second
        cases second with
        | list each => exact each
    rw [listed_pair found]
    exact .list (List.forall_mem_cons.2 ⟨first, others⟩)
  | map _ _ _ keys values =>
    rw [listed, listedEntries_eq_map]
    exact .map (List.forall_mem_map.2 keys) (List.forall_mem_map.2 values)

theorem separated_listed (printable : Printable value) : Separated value.listed := by
  induction printable with
  | nil => exact Printable.nil.separated
  | bool => exact Printable.bool.separated
  | num => exact Printable.num.separated
  | str => exact Printable.str.separated
  | sym atom symbolic => exact (Printable.sym atom symbolic).separated
  | list _ ih =>
    rw [listed, listedAll_eq_map]
    exact separated_list (List.forall_mem_map.2 ih)
  | vec _ ih =>
    rw [listed, listedAll_eq_map]
    exact separated_vec (List.forall_mem_map.2 ih)
  | pair _ _ proper first second =>
    obtain ⟨items, found⟩ := Option.isSome_iff_exists.1 proper
    have others : ∀ item ∈ items.map Value.listed, Separated item := by
      rcases listed_of_chainItems found with ⟨-, rfl⟩ | same
      · exact List.forall_mem_nil _
      · rw [same] at second
        exact second.children_of_list
    rw [listed_pair found]
    exact separated_list (List.forall_mem_cons.2 ⟨first, others⟩)
  | @map origin entries keys values distinct ihKeys ihValues =>
    have separated : Separated (.map origin entries) := (map keys values distinct).separated
    rw [listed, listedEntries_eq_map]
    refine separated_map origin ?_ ?_
    · have same : (entries.map fun entry => (entry.1.listed, entry.2.listed)).map
          (fun entry => entry.1.canonical) = entries.map fun entry => entry.1.canonical := by
        rw [List.map_map]
        exact List.map_congr_left fun entry _ => entry.1.canonical_listed
      rw [same]
      exact separated.keys origin entries .self
    · rw [List.forall_mem_map]
      exact fun entry member => ⟨ihKeys entry member, ihValues entry member⟩

/-- A printable value is equal to what it becomes, and to all copies of that. -/
theorem equals_listed_copy (printable : Printable value)
    (copied : copy.unnumbered = value.listed.unnumbered) :
    value.equals copy = true ∧ copy.equals value = true := by
  have separated := printable.separated
  have separated' := printable.separated_listed
  have shared : ∀ other, SharedAnswered value other := fun _ => separated.selfAnswering.shared
  have replaced : Replacement value value.listed value copy := ⟨rfl, copied, shared _, shared _⟩
  refine ⟨?_, ?_⟩
  · rw [← replaced.equals_eq_equals, equals_iff_canonical separated separated']
    exact value.canonical_listed.symm
  · rw [← replaced.swap.equals_eq_equals, equals_iff_canonical separated' separated]
    exact value.canonical_listed

end Printable

theorem Readable.no_pair (readable : Readable value) (car cdr : Value) :
    ¬ value.Contains (.pair car cdr) := by
  induction readable with
  | nil | bool | num | str | sym =>
    rw [contains_leaf rfl]
    exact nofun
  | list _ ih =>
    rw [contains_list]
    rintro (same | ⟨item, member, inside⟩)
    · cases same
    · exact ih item member inside
  | vec _ ih =>
    rw [contains_vec]
    rintro (same | ⟨item, member, inside⟩)
    · cases same
    · exact ih item member inside
  | map _ _ keys values =>
    rw [contains_map]
    rintro (same | ⟨entry, member, inside | inside⟩)
    · cases same
    · exact keys entry member inside
    · exact values entry member inside

/-- The printed form of a printable value can be read, and what is read is equal to the value, whichever
is asked about the other. It has lists in place of all chains of pairs, and no pair is left. -/
theorem printing_and_reading_is_equality (printable : Printable value) (literals : Nat) :
    ∃ form, MiniLisp.read literals value.print = .ok form ∧
      value.equals form.value = true ∧ form.value.equals value = true ∧
      form.value.unnumbered = value.listed.unnumbered ∧
      ∀ car cdr, ¬ form.value.Contains (.pair car cdr) := by
  obtain ⟨form, read, copied⟩ := printable.readable_listed.read literals
  rw [print_listed] at read
  obtain ⟨equal, equal'⟩ := printable.equals_listed_copy copied
  exact ⟨form, read, equal, equal', copied, (readable_of_read read).no_pair⟩

/-- A map with chains of pairs in a key and in a value. They are read as lists. -/
theorem printing_and_reading_is_equality_chain :
    Value.print (.map (.made 0) [(.pair (.num 1) (.pair (.sym ⟨"a"⟩) .nil),
        .vec [.pair (.str "b") (.list [.num 2])]), (.list [.num 1], .nil)]) =
      "\x7b(1 a) [(\"b\" 2)] (1) nil\x7d" ∧
    ∃ form, MiniLisp.read 0 "\x7b(1 a) [(\"b\" 2)] (1) nil\x7d" = .ok form ∧
      (Value.map (.made 0) [(.pair (.num 1) (.pair (.sym ⟨"a"⟩) .nil),
        .vec [.pair (.str "b") (.list [.num 2])]), (.list [.num 1], .nil)]).equals form.value =
          true := by
  have symbol : Printable (.sym ⟨"a"⟩) := .sym (@IsAtom.of_all 'a' [] rfl rfl) fun _ => rfl
  have key : Printable (.pair (.num 1) (.pair (.sym ⟨"a"⟩) .nil)) :=
    .pair .num (.pair symbol .nil rfl) rfl
  have items : Printable (.list [.num 2]) := .list (List.forall_mem_singleton.2 .num)
  have value : Printable (.vec [.pair (.str "b") (.list [.num 2])]) :=
    .vec (List.forall_mem_singleton.2 (.pair .str items rfl))
  have other : Printable (.list [.num 1]) := .list (List.forall_mem_singleton.2 .num)
  have printable : Printable (.map (.made 0) [(.pair (.num 1) (.pair (.sym ⟨"a"⟩) .nil),
      .vec [.pair (.str "b") (.list [.num 2])]), (.list [.num 1], .nil)]) := by
    refine .map ?_ ?_ ?_
    · simp [key, other]
    · simp [value, Printable.nil]
    · simp only [List.pairwise_cons, List.mem_singleton, forall_eq]
      exact ⟨by cbv, nofun, .nil⟩
  obtain ⟨form, read, equal, -⟩ := printing_and_reading_is_equality printable 0
  have printed : Value.print (.map (.made 0) [(.pair (.num 1) (.pair (.sym ⟨"a"⟩) .nil),
      .vec [.pair (.str "b") (.list [.num 2])]), (.list [.num 1], .nil)]) =
    "\x7b(1 a) [(\"b\" 2)] (1) nil\x7d" := by cbv
  exact ⟨printed, form, printed ▸ read, equal⟩

end MiniLisp
