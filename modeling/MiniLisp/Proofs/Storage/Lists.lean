import Mathlib
import MiniLisp.Eval.Evaluate
import MiniLisp.Proofs.Storage.Nodes

/-! Lists that are made one from another, step by step. The elements of each are those that plain sequences
would have, the count of each is their number, and no list changes while others are made. So a list form that
is not empty by its count has a first element, and a call has a value for it. -/

namespace MiniLisp

/-! ### Steps that make lists -/

/-- Operations on some kind of list. -/
structure ListOperations (α L : Type) where
  empty : L
  cons (value : α) (list : L) : L
  rest (list : L) : L
  ofItems (items : List α) : L

/-- The meaning of the operations on plain sequences. -/
def plainLists {α : Type} : ListOperations α (List α) where
  empty := []
  cons := List.cons
  rest := List.tail
  ofItems items := items

/-- The operations on lists that carry their count. -/
def countedLists {α : Type} : ListOperations α (CountedList α) where
  empty := .empty
  cons := .cons
  rest := .rest
  ofItems := .ofList

/-- A step that makes a list, or stores something else in between. Earlier lists are known by number. -/
inductive ListStep (α β : Type) where
  | empty
  | cons (value : α) (number : Nat)
  | rest (number : Nat)
  /-- A list of all the given elements. -/
  | ofItems (items : List α)
  /-- A list of elements that come one by one. They are gathered first. -/
  | collect (items : List α)
  /-- An earlier list once more. -/
  | get (number : Nat)
  | store (content : β)

/-- Lists of some kind after one more step. There are none if a number is that of no list. -/
def ListStep.make? {α β L : Type} (operations : ListOperations α L) (made : List L) :
    ListStep α β → Option (List L)
  | empty => some (made ++ [operations.empty])
  | cons value number => do some (made ++ [operations.cons value (← made[number]?)])
  | rest number => do some (made ++ [operations.rest (← made[number]?)])
  | ofItems items | collect items => some (made ++ [operations.ofItems items])
  | get number => do some (made ++ [← made[number]?])
  | store _ => some made

/-- The lists of some kind that steps make one after the other. -/
def ListOperations.makeAll? {α β L : Type} (operations : ListOperations α L)
    (steps : List (ListStep α β)) : Option (List L) :=
  steps.foldlM (ListStep.make? operations) []

/-- All that is stored, and the lists that were made, in order. -/
structure MadeLists (α β : Type) where
  cells : Cells α β
  lists : List StoredList

namespace MadeLists

variable {α β : Type}

/-- Nothing is stored. -/
def none : MadeLists α β := ⟨[], []⟩

/-- One more list, with all that is stored now. -/
def add (made : MadeLists α β) (result : Cells α β × StoredList) : MadeLists α β :=
  ⟨result.1, made.lists ++ [result.2]⟩

/-- The stored lists after one more step. There are none if a number is that of no list, or if one cannot be
taken from a count. -/
def step? (made : MadeLists α β) : ListStep α β → Option (MadeLists α β)
  | .empty => some (made.add (made.cells, .empty))
  | .cons value number => do some (made.add (made.cells.cons value (← made.lists[number]?)))
  | .rest number => do some (made.add (made.cells, ← made.cells.rest? (← made.lists[number]?)))
  | .ofItems items | .collect items => some (made.add (made.cells.ofItems items))
  | .get number => do some (made.add (made.cells, ← made.lists[number]?))
  | .store content => some { made with cells := .inr content :: made.cells }

/-- The stored lists that steps make one after the other. -/
def ofSteps? (steps : List (ListStep α β)) : Option (MadeLists α β) := steps.foldlM step? none

/-- The elements of each list that was made. -/
def elements (made : MadeLists α β) : List (List α) := made.lists.map made.cells.elements

/-- The elements of each list that was made, with its count. -/
def counted (made : MadeLists α β) : List (CountedList α) := made.lists.map made.cells.counted

/-! ### Lists stay what they are -/

/-- Whether one state comes after another: more may be stored, and more lists may have been made. -/
structure Grows (made later : MadeLists α β) : Prop where
  cells : made.cells <:+ later.cells
  lists : made.lists <+: later.lists

variable {made later : MadeLists α β}

theorem Grows.refl (made : MadeLists α β) : made.Grows made := ⟨List.suffix_rfl, List.prefix_rfl⟩

theorem Grows.trans {last : MadeLists α β} (grows : made.Grows later) (further : later.Grows last) :
    made.Grows last :=
  ⟨grows.cells.trans further.cells, grows.lists.trans further.lists⟩

theorem grows_add {result : Cells α β × StoredList} (grown : made.cells <:+ result.1) :
    made.Grows (made.add result) :=
  ⟨grown, List.prefix_append _ _⟩

theorem grows_of_step {step : ListStep α β} (stepped : made.step? step = some later) :
    made.Grows later := by
  cases step with
  | empty =>
    cases stepped
    exact grows_add List.suffix_rfl
  | cons value number =>
    obtain ⟨list, -, made⟩ := Option.bind_eq_some_iff.1 stepped
    cases made
    exact grows_add (List.suffix_cons _ _)
  | rest number =>
    obtain ⟨list, -, further⟩ := Option.bind_eq_some_iff.1 stepped
    obtain ⟨rest, -, made⟩ := Option.bind_eq_some_iff.1 further
    cases made
    exact grows_add List.suffix_rfl
  | ofItems items =>
    cases stepped
    exact grows_add (made.cells.suffix_ofItems items)
  | collect items =>
    cases stepped
    exact grows_add (made.cells.suffix_ofItems items)
  | get number =>
    obtain ⟨list, -, made⟩ := Option.bind_eq_some_iff.1 stepped
    cases made
    exact grows_add List.suffix_rfl
  | store content =>
    cases stepped
    exact ⟨List.suffix_cons _ _, List.prefix_rfl⟩

theorem grows_of_steps {steps : List (ListStep α β)} (ran : steps.foldlM step? made = some later) :
    made.Grows later := by
  induction steps generalizing made with
  | nil =>
    cases ran
    exact .refl _
  | cons step steps ih =>
    obtain ⟨middle, stepped, further⟩ := Option.bind_eq_some_iff.1 ran
    exact (grows_of_step stepped).trans (ih further)

end MadeLists

/-! ### Lists are what plain sequences would be -/

theorem rel_bind {related : α → β → Prop} {related' : γ → δ → Prop} {next : α → Option γ}
    {next' : β → Option δ} (both : Option.Rel related first first')
    (each : ∀ value value', related value value' → Option.Rel related' (next value) (next' value')) :
    Option.Rel related' (first >>= next) (first' >>= next') := by
  cases both with
  | none => exact .none
  | some here => exact each _ _ here

theorem map_eq_of_rel {related : α → β → Prop} {view : α → γ} {view' : β → γ}
    (both : Option.Rel related first first')
    (each : ∀ value value', related value value' → view value = view' value') :
    first.map view = first'.map view' := by
  cases both with
  | none => rfl
  | some here => exact congrArg some (each _ _ here)

namespace MadeLists

variable {α β : Type} {made later : MadeLists α β} {sequences : List (List α)}

/-- Whether the lists that were made are stored with the elements of these sequences, and count them. -/
def Agree (made : MadeLists α β) (sequences : List (List α)) : Prop :=
  List.Forall₂ made.cells.Stores made.lists sequences

namespace Agree

theorem add {result : Cells α β × StoredList} (agree : made.Agree sequences)
    (grown : made.cells <:+ result.1) (stores : result.1.Stores result.2 items) :
    (made.add result).Agree (sequences ++ [items]) :=
  List.rel_append (agree.imp fun _ _ stored => stored.grow grown) (.cons stores .nil)

/-- A number is that of a list just if it is that of a sequence. -/
theorem found (agree : made.Agree sequences) (number : Nat) :
    Option.Rel made.cells.Stores made.lists[number]? sequences[number]? := by
  unfold Agree at agree
  generalize made.lists = lists at agree
  induction agree generalizing number with
  | nil => exact .none
  | cons stores _ ih =>
    cases number with
    | zero => exact .some stores
    | succ number => exact ih number

/-- A step makes what it makes of plain sequences, or neither can be done. -/
theorem step (agree : made.Agree sequences) (step : ListStep α β) :
    Option.Rel Agree (made.step? step) (step.make? plainLists sequences) := by
  cases step with
  | empty => exact .some (agree.add List.suffix_rfl (Cells.stores_empty _))
  | cons value number =>
    refine rel_bind (agree.found number) fun list items stores => .some ?_
    exact agree.add (List.suffix_cons _ _) (stores.cons value)
  | rest number =>
    refine rel_bind (agree.found number) fun list items stores => ?_
    obtain ⟨rest, taken, stored⟩ := stores.exists_rest
    rw [taken]
    exact .some (agree.add List.suffix_rfl stored)
  | ofItems items =>
    exact .some (agree.add (made.cells.suffix_ofItems items) (Cells.stores_ofItems _ items))
  | collect items =>
    exact .some (agree.add (made.cells.suffix_ofItems items) (Cells.stores_ofItems _ items))
  | get number =>
    refine rel_bind (agree.found number) fun list items stores => .some ?_
    exact agree.add List.suffix_rfl stores
  | store content => exact .some (agree.imp fun _ _ stored => stored.grow (List.suffix_cons _ _))

theorem steps (agree : made.Agree sequences) (steps : List (ListStep α β)) :
    Option.Rel Agree (steps.foldlM step? made) (steps.foldlM (ListStep.make? plainLists) sequences) := by
  induction steps generalizing made sequences with
  | nil => exact .some agree
  | cons step steps ih => exact rel_bind (agree.step step) fun _ _ stepped => ih stepped

theorem elements_eq (agree : made.Agree sequences) : made.elements = sequences := by
  have each := List.forall₂_map_left_iff.2 (agree.imp fun _ _ stores => stores.elements_eq)
  rwa [List.forall₂_eq_eq_eq] at each

theorem counted_eq (agree : made.Agree sequences) :
    made.counted = sequences.map CountedList.ofList := by
  have each := List.forall₂_map_left_iff.2 (List.forall₂_map_right_iff.2
    (agree.imp fun _ _ stores => stores.counted_eq))
  rwa [List.forall₂_eq_eq_eq] at each

/-- Each list that was made is stored, with some elements. -/
theorem exists_stores (agree : made.Agree sequences) (member : list ∈ made.lists) :
    ∃ items, made.cells.Stores list items := by
  obtain ⟨number, here⟩ := List.getElem?_of_mem member
  have found := agree.found number
  rw [here] at found
  generalize sequences[number]? = items at found
  cases found with
  | some stores => exact ⟨_, stores⟩

end Agree

theorem agree_none : (none : MadeLists α β).Agree [] := .nil

/-- Stored lists are made just if plain sequences are, and agree with them. -/
theorem ofSteps?_agree (steps : List (ListStep α β)) :
    Option.Rel Agree (ofSteps? steps) (plainLists.makeAll? steps) :=
  agree_none.steps steps

end MadeLists

/-- A step makes of lists with their counts what it makes of plain sequences. -/
theorem ListStep.make?_counted (sequences : List (List α)) (step : ListStep α β) :
    step.make? countedLists (sequences.map CountedList.ofList) =
      (step.make? plainLists sequences).map (List.map CountedList.ofList) := by
  cases step with
  | empty => simp [make?, countedLists, plainLists]; rfl
  | cons value number =>
    simp only [make?, List.getElem?_map]
    cases sequences[number]? <;> simp [countedLists, plainLists, CountedList.ofList_cons]
  | rest number =>
    simp only [make?, List.getElem?_map]
    cases sequences[number]? <;> simp [countedLists, plainLists, CountedList.rest_ofList]
  | ofItems items => simp [make?, countedLists, plainLists]
  | collect items => simp [make?, countedLists, plainLists]
  | get number =>
    simp only [make?, List.getElem?_map]
    cases sequences[number]? <;> simp
  | store content => rfl

theorem make_counted (steps : List (ListStep α β)) (sequences : List (List α)) :
    steps.foldlM (ListStep.make? countedLists) (sequences.map CountedList.ofList) =
      (steps.foldlM (ListStep.make? plainLists) sequences).map (List.map CountedList.ofList) := by
  induction steps generalizing sequences with
  | nil => rfl
  | cons step steps ih =>
    rw [List.foldlM_cons, List.foldlM_cons, step.make?_counted]
    cases step.make? plainLists sequences with
    | none => rfl
    | some made => exact ih made

/-! ### Lists as forms -/

/-- The first values and all further ones. There must be so many first ones. -/
def cutAfter? {α : Type} (count : Nat) (values : List α) : Option (List α × List α) :=
  if count ≤ values.length then some (values.splitAt count) else none

/-- Evaluates a call as its list is held: all elements are evaluated, what they give is cut after the first
value, and the first value is applied to the others. There is no value if the cut or the first place is out
of range. -/
def evaluateCall (eval : Evaluator) (scope : Nat) (list : CountedList Value) :
    EvalM (Option Value) := do
  let values ← list.items.mapM (eval scope)
  match cutAfter? 1 values with
  | none => pure none
  | some (values, arguments) =>
    match values[0]? with
    | none => pure none
    | some function => some <$> apply eval function arguments

/-- Evaluates a list form as the list is held: the count tells if it is empty, and the first element, if
there is one, whether it is a special form. -/
def evaluateCounted (eval : Evaluator) (scope : Nat) (list : CountedList Value) :
    EvalM (Option Value) :=
  if list.isEmpty then pure (some (.list list.items))
  else
    match list.first?.bind SpecialForm.ofHead? with
    | some form => do
      EvalM.record (.specialForm form)
      some <$> evaluateSpecial eval scope form list.rest.items
    | none => evaluateCall eval scope list

/-- Where the count is the number of elements, nothing is out of range, and the form is evaluated as ever. -/
theorem evaluateCounted_ofList (eval : Evaluator) (scope : Nat) (items : List Value) :
    evaluateCounted eval scope (.ofList items) = some <$> evaluateStep eval scope (.list items) := by
  rw [evaluateCounted, CountedList.ofList_eq]
  cases items with
  | nil => rfl
  | cons head operands =>
    have first : (⟨head :: operands, operands.length + 1⟩ : CountedList Value).first? = some head := rfl
    have filled : (⟨head :: operands, operands.length + 1⟩ : CountedList Value).isEmpty = false := rfl
    simp only [evaluateStep, evaluateList, List.length_cons, first, filled, Option.bind_some]
    cases SpecialForm.ofHead? head with
    | some form => rfl
    | none =>
      -- There is a value for each element, so for the first one.
      simp [evaluateCall, cutAfter?]

/-- Whatever steps make lists, with anything else stored in between: their elements are those of the plain
sequences that the steps would make, and their counts those of lists that carry their count. The count of a
list is the number of its elements, and is zero just if there is no first one; where `rest?` takes one from a
count, this is not zero. A list that was made has the same elements and the same count after any further
steps. As a form, a list is evaluated as the sequence of its elements, and neither the cut nor the first place
of a call is ever out of range. -/
theorem lists_count_their_elements {β : Type} (steps : List (ListStep Value β)) :
    (MadeLists.ofSteps? steps).map MadeLists.elements = plainLists.makeAll? steps ∧
    (MadeLists.ofSteps? steps).map MadeLists.counted = countedLists.makeAll? steps ∧
    ∀ made, MadeLists.ofSteps? steps = some made →
      (∀ list ∈ made.lists,
        list.count = (made.cells.elements list).length ∧
        (list.isEmpty = true ↔ made.cells.first? list = none) ∧
        (list.head ≠ none → list.count ≠ 0) ∧
        ∀ eval scope, evaluateCounted eval scope (made.cells.counted list) =
          some <$> evaluateStep eval scope (.list (made.cells.elements list))) ∧
      ∀ more later, MadeLists.ofSteps? (steps ++ more) = some later →
        made.lists <+: later.lists ∧
        ∀ list ∈ made.lists, later.cells.counted list = made.cells.counted list := by
  have agreed := MadeLists.ofSteps?_agree steps
  refine ⟨?_, ?_, fun made ran => ?_⟩
  · have same := map_eq_of_rel agreed fun _ _ agree => agree.elements_eq
    rwa [Option.map_id'] at same
  · exact (map_eq_of_rel agreed fun _ _ agree => agree.counted_eq).trans (make_counted steps []).symm
  rw [ran] at agreed
  generalize plainLists.makeAll? steps = sequences at agreed
  cases agreed with
  | some agree =>
  refine ⟨fun list member => ?_, fun more later further => ?_⟩
  · obtain ⟨items, stores⟩ := agree.exists_stores member
    refine ⟨?_, stores.isEmpty_iff, stores.count_ne_zero, fun eval scope => ?_⟩
    · rw [stores.elements_eq, stores.count]
    · rw [stores.counted_eq, stores.elements_eq, evaluateCounted_ofList]
  · rw [MadeLists.ofSteps?, List.foldlM_append] at further
    rw [MadeLists.ofSteps?] at ran
    rw [ran] at further
    have grows := MadeLists.grows_of_steps further
    refine ⟨grows.lists, fun list member => ?_⟩
    obtain ⟨items, stores⟩ := agree.exists_stores member
    rw [stores.counted_eq, (stores.grow grows.cells).counted_eq]

/-- An element in front of a list, with something else stored in between, and the remainder of the longer
list, which is the list itself. One more step takes nothing away. -/
theorem lists_count_their_elements_remainder :
    ∃ cells : Cells Value Unit,
      MadeLists.ofSteps? [.ofItems [.num 2, .num 3], .store (), .cons (.num 1) 0, .rest 1] =
        some ⟨cells, [⟨some 1, 2⟩, ⟨some 3, 3⟩, ⟨some 1, 2⟩]⟩ ∧
      cells.length = 4 ∧ cells.elements ⟨some 3, 3⟩ = [.num 1, .num 2, .num 3] ∧
      (3 = (cells.elements ⟨some 3, 3⟩).length ∧
        (StoredList.isEmpty ⟨some 3, 3⟩ = true ↔ cells.first? ⟨some 3, 3⟩ = none)) ∧
      Cells.counted (.inl ⟨.nil, none⟩ :: cells) ⟨some 3, 3⟩ = cells.counted ⟨some 3, 3⟩ := by
  let steps : List (ListStep Value Unit) :=
    [.ofItems [.num 2, .num 3], .store (), .cons (.num 1) 0, .rest 1]
  obtain ⟨-, -, facts⟩ := lists_count_their_elements steps
  obtain ⟨each, kept⟩ := facts _ rfl
  obtain ⟨count, first, -⟩ := each ⟨some 3, 3⟩ (by decide)
  obtain ⟨-, same⟩ := kept [.ofItems [.nil]] _ rfl
  exact ⟨_, rfl, rfl, rfl, ⟨count, first⟩, same ⟨some 3, 3⟩ (by decide)⟩

end MiniLisp
