import MiniLisp.Eval.Primitive
import MiniLisp.Proofs.Value.Parts

/-! Kinds of values that are passed on. A primitive takes its arguments apart and puts the parts
together anew; it makes no closure, and no symbol but the name of a type. So a kind of values that is
decided by the parts of a value is passed on by every primitive, from the arguments to the result.

Such a kind are the values whose closures have bodies of a certain kind. The body of a closure is the
only part of a value that can be evaluated later, so what a value can set off is decided by the closures
among its parts. -/

namespace MiniLisp

namespace Value

/-- Every closure in a value, at any depth, has a body of a certain kind. -/
def Carries (code : Value → Prop) (value : Value) : Prop :=
  ∀ serial params body scope, Contains value (closure serial params body scope) → code body

variable {code : Value → Prop}

theorem carries_of_all (all : ∀ form, code form) (value : Value) : Carries code value :=
  fun _ _ body _ _ => all body

theorem Carries.child (carries : Carries code value) (held : item ∈ children value) :
    Carries code item :=
  fun serial params body scope inside => carries serial params body scope (.child held inside)

/-- A value that is no closure carries what its parts carry. -/
theorem carries_of_children (other : ∀ serial params body scope,
    value ≠ closure serial params body scope) (held : ∀ item ∈ children value, Carries code item) :
    Carries code value := by
  intro serial params body scope inside
  rcases contains_iff.1 inside with same | ⟨item, member, inside⟩
  · exact (other serial params body scope same.symm).elim
  · exact held item member serial params body scope inside

theorem carries_leaf (other : ∀ serial params body scope,
    value ≠ closure serial params body scope) (leaf : children value = []) :
    Carries code value :=
  carries_of_children other (by simp [leaf])

theorem carries_closure :
    Carries code (closure serial params body scope) ↔ code body := by
  refine ⟨fun carries => carries serial params body scope .self, ?_⟩
  intro run serial' params' body' scope' inside
  rw [contains_leaf rfl] at inside
  cases inside
  exact run

/-! ### Kinds that are decided by the parts -/

/-- A kind of values to which, closures and symbols aside, a value belongs just if its parts do. -/
structure Hereditary (data : Value → Prop) : Prop where
  part : ∀ {value item}, data value → item ∈ children value → data item
  whole : ∀ {value}, (∀ serial params body scope, value ≠ closure serial params body scope) →
    (∀ symbol, value ≠ sym symbol) → (∀ item ∈ children value, data item) → data value
  /-- The names of types are the only symbols that are made. -/
  typeName : ∀ value, data (sym ⟨":" ++ typeName value⟩)

theorem hereditary_carries (code : Value → Prop) : Hereditary (Carries code) where
  part := Carries.child
  whole other _ := carries_of_children other
  typeName _ := carries_leaf (by simp) rfl

namespace Hereditary

variable {data : Value → Prop} (hereditary : Hereditary data)
include hereditary

theorem leaf (other : ∀ serial params body scope, value ≠ closure serial params body scope)
    (other' : ∀ symbol, value ≠ sym symbol) (leaf : children value = []) : data value :=
  hereditary.whole other other' (by simp [leaf])

theorem nil : data nil := hereditary.leaf nofun nofun rfl

theorem bool (b : Bool) : data (bool b) := hereditary.leaf nofun nofun rfl

theorem num (n : Int64) : data (num n) := hereditary.leaf nofun nofun rfl

theorem prim (primitive : Primitive) : data (prim primitive) := hereditary.leaf nofun nofun rfl

theorem list : data (list items) ↔ ∀ item ∈ items, data item :=
  ⟨fun whole _ member => hereditary.part whole member,
    fun each => hereditary.whole (by simp) (by simp) each⟩

theorem vec : data (vec items) ↔ ∀ item ∈ items, data item :=
  ⟨fun whole _ member => hereditary.part whole member,
    fun each => hereditary.whole (by simp) (by simp) each⟩

theorem pair (first : data car) (second : data cdr) : data (pair car cdr) := by
  refine hereditary.whole (by simp) (by simp) ?_
  simp only [children, List.mem_cons, List.not_mem_nil, or_false]
  rintro item (rfl | rfl)
  · exact first
  · exact second

theorem map {entries : Entries} (each : ∀ entry ∈ entries, data entry.1 ∧ data entry.2) :
    data (map origin entries) := by
  refine hereditary.whole (by simp) (by simp) ?_
  intro item held
  obtain ⟨entry, member, rfl | rfl⟩ := Entries.mem_flat.1 held
  · exact (each entry member).1
  · exact (each entry member).2

end Hereditary

end Value

open Value

theorem Entries.insert_each {data : Value → Prop} {entries : Entries}
    (each : ∀ entry ∈ entries, data entry.1 ∧ data entry.2) (key : data newKey)
    (value : data newValue) :
    ∀ entry ∈ entries.insert newKey newValue, data entry.1 ∧ data entry.2 := by
  induction entries with
  | nil => simpa [Entries.insert] using ⟨key, value⟩
  | cons entry entries ih =>
    rw [List.forall_mem_cons] at each
    obtain ⟨⟨oldKey, oldValue⟩, others⟩ := each
    unfold Entries.insert
    split
    · exact List.forall_mem_cons.2 ⟨⟨oldKey, value⟩, others⟩
    · exact List.forall_mem_cons.2 ⟨⟨oldKey, oldValue⟩, ih others⟩

namespace Primitive

theorem ok_bind {next : α → Except EvalError β} (result : α) :
    (Except.ok result >>= next) = next result := rfl

section
variable {data : Value → Prop}

/-- What a primitive of one argument makes of it is all that it makes. -/
private theorem passes_unary {part : Value → Except EvalError Value}
    (each : ∀ argument ∈ arguments, data argument)
    (makes : ∀ argument value, part argument = .ok value → data argument → data value)
    (given : unary primitive part arguments = .ok value) : data value := by
  unfold unary at given
  split at given
  · next argument => exact makes argument value given (each argument List.mem_cons_self)
  · cases given

variable (hereditary : Value.Hereditary data)
include hereditary

private theorem passes_map_num {outcome : Except EvalError Int64}
    (given : Value.num <$> outcome = .ok value) : data value := by
  cases outcome with
  | error => cases given
  | ok n =>
    cases given
    exact hereditary.num n

private theorem ordered_passes {primitive : Primitive} {related : Int → Int → Bool}
    (given : ordered primitive related arguments = .ok value) : data value := by
  unfold ordered at given
  split at given
  · cases given
  · cases numbers : arguments.mapM (number primitive) with
    | error => rw [numbers] at given; cases given
    | ok words =>
      rw [numbers] at given
      cases given
      exact hereditary.bool _

private theorem construct_passes (each : ∀ argument ∈ arguments, data argument)
    (given : construct arguments = .ok value) : data value := by
  unfold construct at given
  split at given
  · cases given
  · next first =>
    cases given
    exact hereditary.pair (each first (by simp)) hereditary.nil
  · next first items =>
    cases given
    have others := hereditary.list.1 (each (.list items) (by simp))
    exact hereditary.list.2 (List.forall_mem_cons.2 ⟨each first (by simp), others⟩)
  · next first second _ =>
    cases given
    exact hereditary.pair (each first (by simp)) (each second (by simp))
  · cases given

private theorem first_passes (argument value : Value) (given : first argument = .ok value)
    (held : data argument) : data value := by
  unfold first at given
  split at given
  · cases given
    exact hereditary.part held (by simp [children])
  · cases given
    exact hereditary.part held (by simp [children])
  · cases given

private theorem remainder_passes (argument value : Value) (given : remainder argument = .ok value)
    (held : data argument) : data value := by
  unfold remainder at given
  split at given
  · cases given
    exact hereditary.part held (by simp [children])
  · cases given
    exact hereditary.list.2 fun item member => hereditary.list.1 held item (List.mem_of_mem_tail member)
  · cases given
    exact held
  · cases given

private theorem count_passes (given : count.result arguments = .ok value) : data value := by
  simp only [result] at given
  unfold unary at given
  split at given
  · next argument =>
    dsimp only at given
    cases found : size argument with
    | error => rw [found] at given; cases given
    | ok n =>
      -- The word is taken as it comes: to compute with its bound would take forever.
      rw [found, ok_bind] at given
      generalize Number.ofInt? n = counted at given
      cases counted with
      | none => cases given
      | some word =>
        cases given
        exact hereditary.num word
  · cases given

/-- The result of a primitive is of a kind of which all its arguments are. -/
theorem result_passes (primitive : Primitive) (each : ∀ argument ∈ arguments, data argument)
    (given : primitive.result arguments = .ok value) : data value := by
  cases primitive
  case count => exact count_passes hereditary given
  all_goals simp only [result] at given
  case add | sub | mul | div => exact passes_map_num hereditary given
  case less | lessOrEqual | greater | greaterOrEqual => exact ordered_passes hereditary given
  case equal =>
    unfold allEqual at given
    split at given
    · cases given
    · cases given
      exact hereditary.bool _
  case cons => exact construct_passes hereditary each given
  case list =>
    cases given
    exact hereditary.list.2 each
  case car => exact passes_unary each (first_passes hereditary) given
  case cdr => exact passes_unary each (remainder_passes hereditary) given
  case isEmpty =>
    refine passes_unary each ?_ given
    intro argument value made _
    cases found : hasNone argument with
    | error => rw [found] at made; cases made
    | ok answer =>
      rw [found] at made
      cases made
      exact hereditary.bool answer
  case isList | isPair =>
    refine passes_unary each ?_ given
    intro argument value made _
    cases made
    exact hereditary.bool _
  case typeOf =>
    refine passes_unary each ?_ given
    intro argument value made _
    cases made
    exact hereditary.typeName argument
  case prn =>
    cases given
    exact hereditary.nil

end

end Primitive

end MiniLisp
