import Mathlib
import MiniLisp.Proofs.Eval.Coupling
import MiniLisp.Proofs.Scope.Bound
import MiniLisp.Proofs.Scope.Outward

/-! Names that a program does not mention. If a name occurs neither in a form nor in the body of any
closure that the form could get hold of, then what the name is bound to in some scope changes nothing:
the evaluation ends alike, writes the same and leaves the same scopes but for that one binding. -/

namespace MiniLisp

open Value

/-- A name occurs in a value, at any depth, or in the body of a closure in it. -/
inductive Value.Mentions (name : Symbol) : Value → Prop where
  | self : Mentions name (.sym name)
  | child (held : item ∈ children value) (inside : Mentions name item) : Mentions name value
  | body (inside : Mentions name body) : Mentions name (.closure serial params body scope)

/-- A form without a name in it. -/
abbrev Value.Omits (name : Symbol) (form : Value) : Prop := ¬ form.Mentions name

@[simp] theorem Value.mentions_sym : (Value.sym symbol).Mentions name ↔ symbol = name := by
  constructor
  · rintro (_ | ⟨held, -⟩ | _)
    · rfl
    · cases held
  · rintro rfl
    exact .self

@[simp] theorem Value.not_mentions_num : ¬ (Value.num n).Mentions name := by
  rintro (_ | ⟨held, -⟩ | _)
  cases held

@[simp] theorem Value.mentions_list :
    (Value.list items).Mentions name ↔ ∃ item ∈ items, item.Mentions name := by
  constructor
  · rintro (_ | ⟨held, inside⟩ | _)
    exact ⟨_, held, inside⟩
  · rintro ⟨item, held, inside⟩
    exact .child held inside

/-! ### A state without one binding -/

/-- Bindings without that of a name. -/
def unbind (name : Symbol) (bindings : List (Symbol × Value)) : List (Symbol × Value) :=
  bindings.filter fun binding => !decide (binding.1 = name)

/-- The scope without the binding of a name. -/
def Scope.without (scope : Scope) (name : Symbol) : Scope :=
  { scope with bindings := unbind name scope.bindings }

/-- The scopes without the binding of a name in one of them. -/
def Scopes.hide (scopes : Scopes) (place : Nat) (name : Symbol) : Scopes :=
  scopes.modify place fun scope => scope.without name

/-- The state without the binding of a name in one scope. -/
def Store.hide (store : Store) (place : Nat) (name : Symbol) : Store :=
  { store with scopes := store.scopes.hide place name }

theorem unbind_cons (omitted : Symbol) (binding : Symbol × Value)
    (bindings : List (Symbol × Value)) : unbind omitted (binding :: bindings) =
      if binding.1 = omitted then unbind omitted bindings
      else binding :: unbind omitted bindings := by
  by_cases same : binding.1 = omitted <;> simp [unbind, same]

theorem unbind_unbind (omitted : Symbol) (bindings : List (Symbol × Value)) :
    unbind omitted (unbind omitted bindings) = unbind omitted bindings := by
  simp [unbind, List.filter_filter]

theorem unbind_rebind (omitted name : Symbol) (value : Value) (bindings : List (Symbol × Value)) :
    unbind omitted (rebind name value bindings) =
      if name = omitted then unbind omitted bindings
      else rebind name value (unbind omitted bindings) := by
  induction bindings with
  | nil => by_cases same : name = omitted <;> simp [rebind, unbind, same]
  | cons binding bindings ih =>
    obtain ⟨other, held⟩ := binding
    by_cases here : other = name
    · subst here
      by_cases same : other = omitted <;> simp [rebind, unbind_cons, same]
    · by_cases gone : other = omitted
      · subst gone
        simp [rebind, unbind_cons, here, ih]
      · by_cases same : name = omitted <;> simp_all [rebind, unbind_cons]

theorem lookup_unbind (other : name ≠ omitted) (bindings : List (Symbol × Value)) :
    (unbind omitted bindings).lookup name = bindings.lookup name := by
  induction bindings with
  | nil => rfl
  | cons binding bindings ih =>
    obtain ⟨found, held⟩ := binding
    rw [unbind_cons]
    split
    · next gone =>
      have apart : (name == found) = false := beq_false_of_ne fun same => other (same.trans gone)
      rw [ih, List.lookup_cons, apart]
    · rw [List.lookup_cons, List.lookup_cons, ih]

theorem Scope.without_bind (scope : Scope) (omitted name : Symbol) (value : Value) :
    (scope.bind name value).without omitted =
      ((scope.without omitted).bind name value).without omitted := by
  simp only [Scope.bind, Scope.without, unbind_rebind, unbind_unbind]

theorem Scope.without_without (scope : Scope) (omitted : Symbol) :
    (scope.without omitted).without omitted = scope.without omitted := by
  simp only [Scope.without, unbind_unbind]

theorem Scope.get?_without (other : name ≠ omitted) (scope : Scope) :
    (scope.without omitted).get? name = scope.get? name :=
  lookup_unbind other scope.bindings

namespace Scopes

theorem getElem?_hide (scopes : Scopes) (place : Nat) (name : Symbol) (scope : Nat) :
    (scopes.hide place name)[scope]? =
      (scopes[scope]?).map fun found => if place = scope then found.without name else found := by
  rw [hide, Array.getElem?_modify]
  split <;> simp

theorem hide_bind (scopes : Scopes) (place : Nat) (omitted : Symbol) (scope : Nat) (name : Symbol)
    (value : Value) : (scopes.bind scope name value).hide place omitted =
      ((scopes.hide place omitted).bind scope name value).hide place omitted := by
  apply Array.ext_getElem?
  intro other
  simp only [getElem?_hide, bind, Array.getElem?_modify]
  cases scopes[other]? with
  | none => simp
  | some found =>
    by_cases there : place = other
    · by_cases here : scope = other
      · simpa [here, there] using Scope.without_bind found omitted name value
      · simp [here, there, Scope.without_without]
    · by_cases here : scope = other <;> simp [here, there]

theorem hide_bind_self (scopes : Scopes) (place : Nat) (name : Symbol) (value : Value) :
    (scopes.bind place name value).hide place name = scopes.hide place name := by
  apply Array.ext_getElem?
  intro other
  simp only [getElem?_hide, bind, Array.getElem?_modify]
  cases scopes[other]? with
  | none => simp
  | some found =>
    by_cases there : place = other <;> simp [there, Scope.without, Scope.bind, unbind_rebind]

theorem hide_push (scopes : Scopes) (place : Nat) (omitted : Symbol) (scope : Scope) :
    hide (scopes.push scope) place omitted =
      hide ((scopes.hide place omitted).push scope) place omitted := by
  have size : (scopes.hide place omitted).size = scopes.size := Array.size_modify
  apply Array.ext_getElem?
  intro other
  simp only [getElem?_hide, Array.getElem?_push, size]
  by_cases new : other = scopes.size
  · simp only [new, ↓reduceIte]
  · rw [if_neg new, if_neg new]
    cases scopes[other]? with
    | none => rfl
    | some found => by_cases there : place = other <;> simp [there, Scope.without_without]

theorem hide_hide (scopes : Scopes) (place : Nat) (omitted : Symbol) :
    (scopes.hide place omitted).hide place omitted = scopes.hide place omitted := by
  apply Array.ext_getElem?
  intro other
  simp only [getElem?_hide]
  cases scopes[other]? with
  | none => rfl
  | some found => by_cases there : place = other <;> simp [there, Scope.without_without]

theorem lookup_hide (other : name ≠ omitted) (scopes : Scopes) (place scope : Nat) :
    (scopes.hide place omitted).lookup scope name = scopes.lookup scope name := by
  have chain : chain (scopes.hide place omitted) scope = chain scopes scope := by
    refine chain_congr fun seen _ => ?_
    rw [getElem?_hide]
    cases scopes[seen]? with
    | none => rfl
    | some found => by_cases here : place = seen <;> simp [here, Scope.without]
  have value : ∀ seen : Nat, ((scopes.hide place omitted)[seen]?.bind fun found => found.get? name) =
      scopes[seen]?.bind fun found => found.get? name := by
    intro seen
    rw [getElem?_hide]
    cases scopes[seen]? with
    | none => rfl
    | some found => by_cases here : place = seen <;> simp [here, Scope.get?_without other]
  rw [lookup, lookup, chain]
  exact congrArg (List.findSome? · (scopes.chain scope)) (funext value)

end Scopes

/-! ### The closures in a state -/

/-- Every closure that is bound in some scope has a body of a certain kind. -/
def Scopes.Carry (code : Value → Prop) (scopes : Scopes) : Prop :=
  ∀ scope ∈ scopes, ∀ binding ∈ scope.bindings, binding.2.Carries code

namespace Scopes.Carry

variable {code : Value → Prop} {scopes : Scopes}

theorem hide (carry : scopes.Carry code) (place : Nat) (omitted : Symbol) :
    (scopes.hide place omitted).Carry code := by
  intro scope member binding held
  obtain ⟨index, found⟩ := Array.getElem?_of_mem member
  rw [getElem?_hide, Option.map_eq_some_iff] at found
  obtain ⟨scope', found, rfl⟩ := found
  refine carry scope' (Array.mem_of_getElem? found) binding ?_
  split at held
  · exact (List.mem_filter.1 held).1
  · exact held

theorem bind (carry : scopes.Carry code) (carries : value.Carries code) (place : Nat)
    (name : Symbol) : (scopes.bind place name value).Carry code :=
  Hold.bind carry carries place name

theorem push (carry : scopes.Carry code) (outer : Nat) :
    Carry code (scopes.push (.inside outer)) :=
  Hold.push carry outer

theorem lookup (carry : scopes.Carry code) (found : scopes.lookup scope name = some value) :
    value.Carries code :=
  Hold.lookup carry found

end Scopes.Carry

/-! ### The two runs -/

/-- Runs from states that are alike but for the binding of a name in one scope. -/
def bindingCoupling (place : Nat) (name : Symbol) : Coupling where
  code := Omits name
  level store store' := store.hide place name = store'.hide place name ∧
    (store.hide place name).scopes.Carry (Omits name)
  stop := .exhausted
  parted _ _ := False

section
variable {place : Nat} {name : Symbol}

/-- A change that can be made without the binding as well. -/
theorem bindingCoupling_keeps {change : Store → Store}
    (alike : ∀ store, (change store).hide place name =
      (change (store.hide place name)).hide place name)
    (carry : ∀ store, store.scopes.Carry (Omits name) → (change store).scopes.Carry (Omits name)) :
    (bindingCoupling place name).Keeps change := by
  refine ⟨?_, fun _ _ parted => parted⟩
  rintro store store' ⟨same, held⟩
  refine ⟨?_, ?_⟩
  · rw [alike store, alike store', same]
  · rw [alike store]
    exact (carry _ held).hide place name

/-- A change of something else than the scopes. -/
theorem bindingCoupling_keeps_elsewhere {change : Store → Store}
    (alike : ∀ store, (change store).hide place name = change (store.hide place name))
    (scopes : ∀ store, (change store).scopes = store.scopes) :
    (bindingCoupling place name).Keeps change := by
  refine bindingCoupling_keeps (fun store => ?_) fun store held => by rwa [scopes]
  have twice : (store.hide place name).hide place name = store.hide place name :=
    congrArg (fun scopes => { store with scopes := scopes }) (store.scopes.hide_hide place name)
  rw [alike, alike, twice]

theorem bindingCoupling_lawful (place : Nat) (name : Symbol) :
    (bindingCoupling place name).Lawful where
  part omits held inside := omits (.child held inside)
  body omits inside := omits (.body inside)
  nil := by
    intro inside
    cases inside with
    | child held _ => cases held
  numbers store store' level := by
    have size : ∀ store : Store, (store.hide place name).scopes.size = store.scopes.size :=
      fun store => Array.size_modify
    refine ⟨(congrArg Store.serial level.1).symm, ?_⟩
    rw [← size store, ← size store', level.1]
  record event _ := bindingCoupling_keeps_elsewhere (fun _ => rfl) fun _ => rfl
  bind scope other value carries := bindingCoupling_keeps
    (fun store => congrArg (fun scopes => { store.record (.binding other) with scopes := scopes })
      (store.scopes.hide_bind place name scope other value))
    fun store held => held.bind carries scope other
  addScope outer := bindingCoupling_keeps
    (fun store => congrArg (fun scopes => { store with scopes := scopes })
      (store.scopes.hide_push place name (.inside outer)))
    fun store held => held.push outer
  number := bindingCoupling_keeps_elsewhere (fun _ => rfl) fun _ => rfl
  lookup scope other omits := by
    have apart : other ≠ name := fun same => omits (same ▸ .self)
    refine Coupling.lookup_inStep ?_ ?_
    · intro store store' level
      rw [← Scopes.lookup_hide apart store.scopes place,
        ← Scopes.lookup_hide apart store'.scopes place]
      exact congrArg (fun store : Store => store.scopes.lookup scope other) level.1.symm
    · rintro store store' value (⟨same, held⟩ | parted) found
      · rw [← Scopes.lookup_hide apart store'.scopes place] at found
        have held' : (store'.hide place name).scopes.Carry (Omits name) := same ▸ held
        exact held'.lookup found
      · exact parted.elim
  call primitive arguments each := by
    have record : ∀ event, (bindingCoupling place name).Keeps fun store => store.record event :=
      fun event => bindingCoupling_keeps_elsewhere (fun _ => rfl) fun _ => rfl
    refine Coupling.call_inStep record (fun text => Coupling.write_inStep ?_ ?_) each
    · exact bindingCoupling_keeps_elsewhere (fun _ => rfl) fun _ => rfl
    · exact fun store store' level => (congrArg Store.device level.1).symm

end

/-- The state with a name bound in a scope. -/
def Store.holding (store : Store) (place : Nat) (name : Symbol) (value : Value) : Store :=
  { store with scopes := store.scopes.bind place name value }

theorem Store.hide_holding (store : Store) (place : Nat) (name : Symbol) (value : Value) :
    (store.holding place name value).hide place name = store.hide place name :=
  congrArg (fun scopes => { store with scopes := scopes })
    (store.scopes.hide_bind_self place name value)

/-- If a name occurs neither in a form nor in the body of any closure that is held in a state, except
perhaps in what the name is bound to in one scope, then another value may be put there: at every depth
the form is evaluated with the same outcome and the same output, and the states that are left differ at
most in that binding. -/
theorem unmentioned_name_changes_nothing (depth scope : Nat) (form : Value) (store : Store)
    (place : Nat) (name : Symbol) (value : Value) (omits : form.Omits name)
    (carry : (store.hide place name).scopes.Carry (Omits name)) :
    (evaluate depth scope form).outcome (store.holding place name value) =
        (evaluate depth scope form).outcome store ∧
      ((evaluate depth scope form).after (store.holding place name value)).output =
        ((evaluate depth scope form).after store).output ∧
      ((evaluate depth scope form).after (store.holding place name value)).hide place name =
        ((evaluate depth scope form).after store).hide place name := by
  have runs := Coupling.evaluate_inStep (bindingCoupling_lawful place name) depth scope form omits
  obtain ⟨-, step⟩ := runs.level store (store.holding place name value)
    ⟨(store.hide_holding place name value).symm, carry⟩
  rcases step with ⟨same, level, -⟩ | ⟨-, parted⟩
  · exact ⟨same, (congrArg Store.output level).symm, level.symm⟩
  · exact parted.elim

theorem unmentioned_name_changes_nothing_let :
    (Value.list [.sym ⟨"let*"⟩, .list [.sym ⟨"a"⟩, .num 2], .sym ⟨"a"⟩]).Omits ⟨"x"⟩ ∧
      (Store.initial.hide 0 ⟨"x"⟩).scopes.Carry (Omits ⟨"x"⟩) ∧
      ((evaluate 3 0 (.list [.sym ⟨"let*"⟩, .list [.sym ⟨"a"⟩, .num 2], .sym ⟨"a"⟩])).outcome
        (Store.initial.holding 0 ⟨"x"⟩ (.closure 7 ⟨[], none⟩ (.sym ⟨"x"⟩) 0)) =
          .ok (.num 2)) := by
  have omits : (Value.list [.sym ⟨"let*"⟩, .list [.sym ⟨"a"⟩, .num 2], .sym ⟨"a"⟩]).Omits ⟨"x"⟩ := by
    simp [Omits]
  have carry : (Store.initial.hide 0 ⟨"x"⟩).scopes.Carry (Omits ⟨"x"⟩) := by
    suffices initial : Store.initial.scopes.Carry (Omits ⟨"x"⟩) from initial.hide 0 ⟨"x"⟩
    intro scope member binding held
    cases Array.mem_singleton.1 member
    rcases List.mem_append.1 held with held | held
    · obtain ⟨primitive, -, rfl⟩ := List.mem_map.1 held
      exact carries_leaf (by simp) rfl
    · cases List.mem_singleton.1 held
      exact carries_leaf (by simp) rfl
  refine ⟨omits, carry, ?_⟩
  rw [(unmentioned_name_changes_nothing 3 0 _ Store.initial 0 ⟨"x"⟩
    (.closure 7 ⟨[], none⟩ (.sym ⟨"x"⟩) 0) omits carry).1]
  cbv

end MiniLisp
