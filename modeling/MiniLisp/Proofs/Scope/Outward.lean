import Mathlib.Logic.ExistsUnique
import MiniLisp.Proofs.Eval.Steps

/-! Ways outward. Scopes are made one by one, and a scope that is made inside another one stays there.
So the way from any scope outward ends at a scope that stands alone. A name is looked up along this
way: the nearest scope that binds it decides, and a new binding is seen from just those scopes from
which no nearer binding of the name is. -/

namespace MiniLisp

/-- The states that can be made, scope by scope and binding by binding. -/
inductive Store.Reached : Store → Prop where
  | start (none : store.scopes = #[]) : Reached store
  | alone (reached : Reached store) (new : scope = .outermost ∨ scope = .global) :
      Reached (store.addScope scope)
  | inside (reached : Reached store) (held : outer < store.scopes.size) :
      Reached (store.addScope (.inside outer))
  | enter (reached : Reached store) (held : outer < store.scopes.size) (params : Params)
      (arguments : List Value) : Reached (store.enter outer params arguments)
  | bind (reached : Reached store) (held : scope < store.scopes.size) (name : Symbol)
      (value : Value) : Reached (store.bind scope name value)

namespace Scopes

/-- One scope is the scope directly around another one. -/
def Around (scopes : Scopes) (outer scope : Nat) : Prop :=
  ∃ found : Scope, scopes[scope]? = some found ∧ found.outer = some outer

/-- The way from a scope outward, up to a scope that stands alone. -/
inductive Outward (scopes : Scopes) : Nat → List Nat → Prop where
  | alone {found : Scope} (held : scopes[scope]? = some found) (none : found.outer = none) :
      Outward scopes scope [scope]
  | inside (around : scopes.Around outer scope) (further : Outward scopes outer way) :
      Outward scopes scope (scope :: way)

/-- What a scope itself binds a name to. -/
def bound? (scopes : Scopes) (name : Symbol) (scope : Nat) : Option Value :=
  scopes[scope]?.bind fun found => found.get? name

/-- The first scope on the way outward that binds a name. -/
def Nearest (scopes : Scopes) (name : Symbol) (scope nearest : Nat) : Prop :=
  ∃ before after, scopes.Outward scope (before ++ nearest :: after) ∧
    (scopes.bound? name nearest).isSome ∧ ∀ seen ∈ before, scopes.bound? name seen = none

/-- Every scope was made after the scope around it. -/
def Linked (scopes : Scopes) : Prop := ∀ outer scope, scopes.Around outer scope → outer < scope

/-! ### Scopes are linked backwards -/

theorem map_outer_bind (scopes : Scopes) (place : Nat) (name : Symbol) (value : Value) (scope : Nat) :
    ((scopes.bind place name value)[scope]?).map Scope.outer = (scopes[scope]?).map Scope.outer := by
  rw [bind, Array.getElem?_modify]
  split
  · rw [Option.map_map]
    rfl
  · rfl

theorem Linked.bind {scopes : Scopes} (linked : scopes.Linked) (place : Nat) (name : Symbol)
    (value : Value) : (scopes.bind place name value).Linked := by
  rintro outer scope ⟨found, held, around⟩
  have same := scopes.map_outer_bind place name value scope
  rw [held] at same
  obtain ⟨found', held', around'⟩ := Option.map_eq_some_iff.1 same.symm
  exact linked outer scope ⟨found', held', around'.trans around⟩

theorem Linked.push {scopes : Scopes} (linked : scopes.Linked)
    (earlier : ∀ outer, scope.outer = some outer → outer < scopes.size) :
    Linked (scopes.push scope) := by
  rintro outer inner ⟨found, held, around⟩
  rw [Array.getElem?_push] at held
  split at held
  · next last =>
    cases held
    exact last ▸ earlier outer around
  · exact linked outer inner ⟨found, held, around⟩

theorem Linked.push_inside {scopes : Scopes} (linked : scopes.Linked) (held : outer < scopes.size) :
    Linked (scopes.push (.inside outer)) := by
  refine linked.push ?_
  rintro _ ⟨⟩
  exact held

end Scopes

theorem Store.Reached.linked {store : Store} (reached : store.Reached) : store.scopes.Linked := by
  induction reached with
  | start none =>
    rintro outer scope ⟨found, held, -⟩
    simp [none] at held
  | alone _ new ih =>
    refine ih.push ?_
    rcases new with rfl | rfl
    · exact nofun
    · exact nofun
  | inside _ held ih => exact ih.push_inside held
  | enter _ held params arguments ih =>
    refine Store.enter_induction (motive := fun begun => begun.scopes.Linked) ?_ ?_
    · exact ih.push_inside held
    · exact fun begun linked binding _ => linked.bind _ binding.1 binding.2
  | bind _ _ name value ih => exact ih.bind _ name value

namespace Scopes

/-! ### Every way outward ends -/

section
variable {scopes : Scopes}

theorem Linked.wellFounded (linked : scopes.Linked) : WellFounded scopes.Around :=
  Subrelation.wf (linked _ _) Nat.lt_wfRel.wf

theorem Linked.outward_chain (linked : scopes.Linked) (made : scope < scopes.size) :
    scopes.Outward scope (scopes.chain scope) := by
  fun_induction chain scopes scope with
  | case1 scope absent =>
    rw [Array.getElem?_eq_none_iff] at absent
    omega
  | case2 scope found held none => exact .alone held none
  | case3 scope found held outer around earlier ih =>
    exact .inside ⟨found, held, around⟩ (ih (by omega))
  | case4 scope found held outer around later =>
    exact (later (linked outer scope ⟨found, held, around⟩)).elim

theorem Outward.unique (first : scopes.Outward scope way) (second : scopes.Outward scope way') :
    way = way' := by
  induction first generalizing way' with
  | alone held none =>
    cases second with
    | alone => rfl
    | inside around =>
      obtain ⟨found, held', around⟩ := around
      cases held.symm.trans held'
      cases none.symm.trans around
  | inside around _ ih =>
    obtain ⟨found, held, around⟩ := around
    cases second with
    | alone held' none =>
      cases held.symm.trans held'
      cases around.symm.trans none
    | inside around' further =>
      obtain ⟨found', held', around'⟩ := around'
      cases held.symm.trans held'
      cases around.symm.trans around'
      rw [ih further]

theorem Linked.outward_iff (linked : scopes.Linked) (made : scope < scopes.size) :
    scopes.Outward scope way ↔ scopes.chain scope = way := by
  have ends := linked.outward_chain made
  constructor
  · exact ends.unique
  · rintro rfl
    exact ends

end

/-- The way outward depends on nothing but the scopes around earlier ones. -/
theorem chain_congr {scopes scopes' : Scopes} {scope : Nat} (same : ∀ seen ≤ scope,
    (scopes[seen]?).map Scope.outer = (scopes'[seen]?).map Scope.outer) :
    chain scopes scope = chain scopes' scope := by
  have around : ∀ {seen : Nat} {found : Scope}, seen ≤ scope → scopes[seen]? = some found →
      ∃ found', scopes'[seen]? = some found' ∧ found'.outer = found.outer := by
    intro seen found earlier held
    have here := same seen earlier
    rw [held] at here
    exact Option.map_eq_some_iff.1 here.symm
  fun_induction chain scopes scope with
  | case1 scope absent =>
    have here := same scope (Nat.le_refl scope)
    rw [absent] at here
    rw [chain, Option.map_eq_none_iff.1 here.symm]
  | case2 scope found held outermost =>
    obtain ⟨found', held', outer'⟩ := around (Nat.le_refl scope) held
    rw [chain, held']
    simp only [outer', outermost]
  | case3 scope found held outer inside earlier ih =>
    obtain ⟨found', held', outer'⟩ := around (Nat.le_refl scope) held
    have further := ih (fun seen before => same seen (by omega)) fun before => around (by omega)
    rw [further, chain.eq_def scopes' scope, held']
    simp only [outer', inside, earlier, ↓reduceIte]
  | case4 scope found held outer inside later =>
    obtain ⟨found', held', outer'⟩ := around (Nat.le_refl scope) held
    rw [chain, held']
    simp only [outer', inside, later, ↓reduceIte]

/-! ### The nearest binding -/

section
variable {scopes : Scopes} (linked : scopes.Linked) (made : scope < scopes.size)
include linked made

theorem Linked.lookup_eq_some_iff : scopes.lookup scope name = some value ↔
    ∃ nearest, scopes.Nearest name scope nearest ∧ scopes.bound? name nearest = some value := by
  have along : scopes.lookup scope name = (scopes.chain scope).findSome? (scopes.bound? name) := rfl
  rw [along, List.findSome?_eq_some_iff]
  constructor
  · rintro ⟨before, nearest, after, way, bound, apart⟩
    have outward := (linked.outward_iff made).2 way
    exact ⟨nearest, ⟨before, after, outward, Option.isSome_of_mem bound, apart⟩, bound⟩
  · rintro ⟨nearest, ⟨before, after, outward, -, apart⟩, bound⟩
    exact ⟨before, nearest, after, (linked.outward_iff made).1 outward, bound, apart⟩

theorem Linked.lookup_eq_none_iff : scopes.lookup scope name = none ↔
    ∀ way, scopes.Outward scope way → ∀ seen ∈ way, scopes.bound? name seen = none := by
  have along : scopes.lookup scope name = (scopes.chain scope).findSome? (scopes.bound? name) := rfl
  rw [along, List.findSome?_eq_none_iff]
  constructor
  · intro apart way outward
    rwa [← (linked.outward_iff made).1 outward]
  · exact fun apart => apart _ (linked.outward_chain made)

end

/-! ### A new binding -/

theorem bound?_bind (scopes : Scopes) (place : Nat) (name other : Symbol) (value : Value)
    (scope : Nat) : (scopes.bind place name value).bound? other scope =
      if scope = place ∧ scope < scopes.size ∧ other = name then some value
      else scopes.bound? other scope := by
  rw [bound?, bound?, bind, Array.getElem?_modify]
  by_cases here : scope = place
  · subst here
    rw [if_pos rfl]
    by_cases made : scope < scopes.size
    · simp [made, Scope.get?_bind]
    · simp [made]
  · rw [if_neg (Ne.symm here), if_neg fun both => here both.1]

theorem bound?_bind_self {scopes : Scopes} (held : place < scopes.size) (name : Symbol)
    (value : Value) : (scopes.bind place name value).bound? name place = some value := by
  rw [bound?_bind, if_pos ⟨rfl, held, rfl⟩]

theorem bound?_eq_none_of_bind {scopes : Scopes}
    (unbound : (scopes.bind place name value).bound? other scope = none) :
    scopes.bound? other scope = none := by
  rw [bound?_bind] at unbound
  split at unbound
  · cases unbound
  · exact unbound

theorem size_bind (scopes : Scopes) (place : Nat) (name : Symbol) (value : Value) :
    (scopes.bind place name value).size = scopes.size :=
  Array.size_modify

section
variable {scopes : Scopes} (linked : scopes.Linked) (made : scope < scopes.size)
include linked made

theorem Linked.outward_bind_iff : (scopes.bind place name value).Outward scope way ↔
    scopes.Outward scope way := by
  have made' : scope < (scopes.bind place name value).size := by rwa [size_bind]
  rw [(linked.bind place name value).outward_iff made', linked.outward_iff made]
  rw [chain_congr fun seen _ => scopes.map_outer_bind place name value seen]

/-- Where the new binding is the nearest one, it is seen. -/
theorem Linked.lookup_bind_of_nearest (held : place < scopes.size)
    (nearest : (scopes.bind place name value).Nearest name scope place) :
    (scopes.bind place name value).lookup scope name = some value := by
  have made' : scope < (scopes.bind place name value).size := by rwa [size_bind]
  rw [(linked.bind place name value).lookup_eq_some_iff made']
  exact ⟨place, nearest, bound?_bind_self held name value⟩

/-- Where the new binding is not the nearest one of its name, everything is as it was. -/
theorem Linked.lookup_bind_of_apart
    (apart : ¬ (other = name ∧ (scopes.bind place name value).Nearest name scope place)) :
    (scopes.bind place name value).lookup scope other = scopes.lookup scope other := by
  have linked' := linked.bind place name value
  have made' : scope < (scopes.bind place name value).size := by rwa [size_bind]
  cases found : (scopes.bind place name value).lookup scope other with
  | none =>
    rw [linked'.lookup_eq_none_iff made'] at found
    symm
    rw [linked.lookup_eq_none_iff made]
    intro way outward seen member
    exact bound?_eq_none_of_bind (found way ((linked.outward_bind_iff made).2 outward) seen member)
  | some old =>
    rw [linked'.lookup_eq_some_iff made'] at found
    obtain ⟨nearest, first, bound⟩ := found
    -- The binding that is found is not the new one, so it was there before.
    have kept : scopes.bound? other nearest = some old := by
      rw [bound?_bind] at bound
      split at bound
      · next new =>
        obtain ⟨rfl, -, rfl⟩ := new
        exact (apart ⟨rfl, first⟩).elim
      · exact bound
    obtain ⟨before, after, outward, -, unbound⟩ := first
    symm
    rw [linked.lookup_eq_some_iff made]
    refine ⟨nearest, ⟨before, after, (linked.outward_bind_iff made).1 outward, ?_, ?_⟩, kept⟩
    · exact Option.isSome_of_mem kept
    · exact fun seen member => bound?_eq_none_of_bind (unbound seen member)

end

end Scopes

/-! ### Names that can be seen -/

theorem Scope.mem_names (scope : Scope) {name : String} :
    name ∈ scope.names ↔ (scope.get? ⟨name⟩).isSome := by
  rw [names, get?, List.lookup_isSome_iff, List.mem_map]
  constructor
  · rintro ⟨binding, held, rfl⟩
    exact ⟨binding, held, beq_self_eq_true _⟩
  · rintro ⟨binding, held, same⟩
    exact ⟨binding, held, (congrArg Symbol.name (eq_of_beq same)).symm⟩

theorem Scopes.mem_visible {scopes : Scopes} {name : String} :
    name ∈ scopes.visible scope ↔ (scopes.lookup scope ⟨name⟩).isSome := by
  rw [visible, Names.mem_sort, List.mem_flatMap, lookup, List.findSome?_isSome_iff]
  refine exists_congr fun seen => and_congr_right fun _ => ?_
  cases scopes[seen]? with
  | none => simp
  | some found => exact found.mem_names

/-! ### Looking a name up -/

theorem EvalM.outcome_lookup_eq_ok_iff : (lookup scope name).outcome store = .ok value ↔
    store.scopes.lookup scope name = some value := by
  rw [outcome_lookup]
  cases store.scopes.lookup scope name <;> simp

theorem EvalM.outcome_lookup_eq_error_iff : (lookup scope name).outcome store = .error halt ↔
    store.scopes.lookup scope name = none ∧ halt = .error (.unbound name) := by
  rw [outcome_lookup]
  cases store.scopes.lookup scope name <;> simp [eq_comm]

/-- In every state that can be made, each scope has one way outward, and no way goes on forever. The
value of a name is that of the nearest binding on this way; the name is unbound just if there is none,
and visible just if there is one. A new binding is made in its scope, is seen from all scopes to which it
is the nearest one of its name, and changes no other lookup. -/
theorem names_are_found_outward (reached : store.Reached) :
    WellFounded store.scopes.Around ∧
    ∀ scope < store.scopes.size,
      (∃! way, store.scopes.Outward scope way) ∧
      (∀ name value, (EvalM.lookup scope name).outcome store = .ok value ↔
        ∃ nearest, store.scopes.Nearest name scope nearest ∧
          store.scopes.bound? name nearest = some value) ∧
      (∀ name halt, (EvalM.lookup scope name).outcome store = .error halt ↔
        (∀ way, store.scopes.Outward scope way → ∀ seen ∈ way,
          store.scopes.bound? name seen = none) ∧ halt = .error (.unbound name)) ∧
      (∀ name : String, name ∈ store.scopes.visible scope ↔
        ∃ value, (EvalM.lookup scope ⟨name⟩).outcome store = .ok value) ∧
      ∀ place < store.scopes.size, ∀ name value,
        (store.bind place name value).scopes.bound? name place = some value ∧
        ((store.bind place name value).scopes.Nearest name scope place →
          (EvalM.lookup scope name).outcome (store.bind place name value) = .ok value) ∧
        ∀ other, ¬ (other = name ∧ (store.bind place name value).scopes.Nearest name scope place) →
          (EvalM.lookup scope other).outcome (store.bind place name value) =
            (EvalM.lookup scope other).outcome store := by
  have linked := reached.linked
  refine ⟨linked.wellFounded, fun scope made => ⟨?_, ?_, ?_, ?_, ?_⟩⟩
  · have outward := linked.outward_chain made
    exact ⟨_, outward, fun _ other => other.unique outward⟩
  · intro name value
    rw [EvalM.outcome_lookup_eq_ok_iff, linked.lookup_eq_some_iff made]
  · intro name halt
    rw [EvalM.outcome_lookup_eq_error_iff, linked.lookup_eq_none_iff made]
  · intro name
    simp only [EvalM.outcome_lookup_eq_ok_iff, Scopes.mem_visible, Option.isSome_iff_exists]
  · intro place held name value
    refine ⟨Scopes.bound?_bind_self held name value, ?_, ?_⟩
    · intro nearest
      exact EvalM.outcome_lookup_eq_ok_iff.2 (linked.lookup_bind_of_nearest made held nearest)
    · intro other apart
      have same : (store.bind place name value).scopes.lookup scope other =
          store.scopes.lookup scope other := linked.lookup_bind_of_apart made apart
      rw [EvalM.outcome_lookup, EvalM.outcome_lookup, same]

/-- A name that is bound again in an inner scope has its new value there, and keeps the old one
outside. -/
theorem names_are_found_outward_shadowed :
    let store := ((({ Store.initial with scopes := #[] } : Store).addScope .outermost).bind 0 ⟨"x"⟩
      (.num 10)).addScope (.inside 0)
    store.Reached ∧ (EvalM.lookup 1 ⟨"x"⟩).outcome store = .ok (.num 10) ∧
      (store.bind 1 ⟨"x"⟩ (.num 50)).scopes.bound? ⟨"x"⟩ 1 = some (.num 50) ∧
      (EvalM.lookup 1 ⟨"x"⟩).outcome (store.bind 1 ⟨"x"⟩ (.num 50)) = .ok (.num 50) ∧
      (EvalM.lookup 0 ⟨"x"⟩).outcome (store.bind 1 ⟨"x"⟩ (.num 50)) =
        (EvalM.lookup 0 ⟨"x"⟩).outcome store := by
  intro store
  have reached : store.Reached :=
    .inside (.bind (.alone (.start rfl) (.inl rfl)) (by decide) _ _) (by decide)
  obtain ⟨-, each⟩ := names_are_found_outward reached
  obtain ⟨-, -, -, -, kept⟩ := each 0 (by decide)
  obtain ⟨-, found, -, -, bound⟩ := each 1 (by decide)
  refine ⟨reached, ?_, (bound 1 (by decide) _ _).1, ?_, ?_⟩
  · refine (found _ _).2 ⟨0, ⟨[1], [], ?_, rfl, ?_⟩, rfl⟩
    · exact .inside ⟨_, rfl, rfl⟩ (.alone rfl rfl)
    · exact List.forall_mem_singleton.2 rfl
  · refine (bound 1 (by decide) _ _).2.1 ⟨[], [0], ?_, rfl, nofun⟩
    exact .inside ⟨_, rfl, rfl⟩ (.alone rfl rfl)
  · refine (kept 1 (by decide) _ _).2.2 _ ?_
    rintro ⟨-, before, after, outward, -⟩
    have outermost : [0] = before ++ 1 :: after :=
      Scopes.Outward.unique (.alone rfl rfl) outward
    have member : 1 ∈ [0] := outermost ▸ List.mem_append_right before List.mem_cons_self
    exact absurd member (by decide)

end MiniLisp
