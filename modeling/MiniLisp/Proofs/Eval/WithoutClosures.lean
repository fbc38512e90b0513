import Mathlib
import MiniLisp.Proofs.Eval.Depth
import MiniLisp.Proofs.Eval.Frames
import MiniLisp.Proofs.Scope.Bound
import MiniLisp.Proofs.Scope.Outward

/-! Evaluation without closures. Only the call of a closure evaluates a form that is no part of the one
at hand. So a form without closures and without the means to make them, evaluated where no closure can be
looked up, is evaluated along its own parts: this ends, and goes no deeper than the form is nested.

The measure works only together with an invariant: none of the scopes that can be seen holds a closure.
Scopes that cannot be seen may hold any, and they are left alone. -/

namespace MiniLisp

namespace Value

/-! ### Nesting -/

mutual

/-- How deep a value is nested. What has no parts is one level deep. -/
def nesting : Value → Nat
  | pair car cdr => max (nesting car) (nesting cdr) + 1
  | list items => nestingAll items + 1
  | vec items => nestingAll items + 1
  | map _ entries => nestingEntries entries + 1
  | nil | bool _ | num _ | str _ | sym _ | prim _ | closure _ _ _ _ => 1

/-- How deep the deepest of some values is nested. -/
def nestingAll : List Value → Nat
  | [] => 0
  | item :: items => max (nesting item) (nestingAll items)

/-- How deep the deepest of some keys and values is nested. -/
def nestingEntries : List (Value × Value) → Nat
  | [] => 0
  | (key, value) :: entries => max (max (nesting key) (nesting value)) (nestingEntries entries)

end

theorem nesting_le_nestingAll {items : List Value} (member : item ∈ items) :
    nesting item ≤ nestingAll items := by
  induction items with
  | nil => cases member
  | cons first items ih =>
    rw [nestingAll]
    rcases List.mem_cons.1 member with rfl | member
    · exact Nat.le_max_left _ _
    · exact Nat.le_trans (ih member) (Nat.le_max_right _ _)

theorem nesting_le_nestingEntries {entries : Entries} (member : item ∈ entries.flat) :
    nesting item ≤ nestingEntries entries := by
  induction entries with
  | nil => cases member
  | cons entry entries ih =>
    obtain ⟨key, value⟩ := entry
    have parts : item = key ∨ item = value ∨ item ∈ Entries.flat entries := by
      simpa [Entries.flat] using member
    rw [nestingEntries]
    rcases parts with rfl | rfl | member
    · omega
    · omega
    · have := ih member
      omega

theorem nesting_pos (value : Value) : 0 < nesting value := by
  cases value <;> simp [nesting]

/-- The parts of a value are nested less deep. -/
theorem nesting_child (held : item ∈ children value) : nesting item < nesting value := by
  cases value with
  | pair car cdr =>
    simp only [children, List.mem_cons, List.not_mem_nil, or_false] at held
    rw [nesting]
    rcases held with rfl | rfl <;> omega
  | list items => exact Nat.lt_succ_of_le (nesting_le_nestingAll held)
  | vec items => exact Nat.lt_succ_of_le (nesting_le_nestingAll held)
  | map origin entries => exact Nat.lt_succ_of_le (nesting_le_nestingEntries held)
  | _ => cases held

/-! ### Values and forms without closures -/

/-- No closure occurs in a value, at any depth. -/
def ClosureFree (value : Value) : Prop :=
  ∀ serial params body scope, ¬ value.Contains (closure serial params body scope)

theorem closureFree_hereditary : Hereditary ClosureFree := hereditary_carries fun _ => False

/-- A form that neither holds closures nor can make any, and is not nested too deep. -/
structure FirstOrder (depth : Nat) (form : Value) : Prop where
  shallow : form.nesting ≤ depth
  free : form.ClosureFree
  noLambda : ¬ form.Contains (.sym ⟨SpecialForm.lambda.name⟩)

namespace FirstOrder

theorem child (order : FirstOrder (depth + 1) form) (held : item ∈ form.children) :
    FirstOrder depth item where
  shallow := Nat.le_of_lt_succ (Nat.lt_of_lt_of_le (nesting_child held) order.shallow)
  free := closureFree_hereditary.part order.free held
  noLambda inside := order.noLambda (.child held inside)

theorem deeper (order : FirstOrder depth form) : FirstOrder (depth + 1) form :=
  ⟨Nat.le_succ_of_le order.shallow, order.free, order.noLambda⟩

theorem part (order : FirstOrder depth form) (held : item ∈ form.children) :
    FirstOrder depth item := order.deeper.child held

end FirstOrder

end Value

open Value

/-! ### Scopes without closures -/

namespace Scopes

/-- No closure is bound in a scope. -/
def FreeAt (scopes : Scopes) (scope : Nat) : Prop :=
  ∀ found, scopes[scope]? = some found → ∀ binding ∈ found.bindings, binding.2.ClosureFree

/-- A scope exists, and no closure is bound in it nor further outward. -/
structure FreeAlong (scopes : Scopes) (scope : Nat) : Prop where
  made : scope < scopes.size
  free : ∀ seen ∈ scopes.chain scope, scopes.FreeAt seen

/-- What may become of scopes when no closure is bound: each stays inside the same one, and none that
is free of closures, or is yet to be made, gets one. -/
structure StayFree (before after : Scopes) : Prop where
  outer : ∀ scope < before.size,
    (after[scope]?).map Scope.outer = (before[scope]?).map Scope.outer
  free : ∀ scope, before.FreeAt scope → after.FreeAt scope

namespace StayFree

theorem refl (scopes : Scopes) : StayFree scopes scopes := ⟨fun _ _ => rfl, fun _ free => free⟩

theorem size_le (stay : StayFree before after) : before.size ≤ after.size := by
  refine Nat.le_of_not_lt fun fewer => ?_
  have gone := stay.outer after.size fewer
  simp [fewer] at gone

theorem trans (first : StayFree before middle) (second : StayFree middle after) :
    StayFree before after := by
  refine ⟨fun scope made => ?_, fun scope free => second.free scope (first.free scope free)⟩
  have made' : scope < middle.size := Nat.lt_of_lt_of_le made first.size_le
  exact (second.outer scope made').trans (first.outer scope made)

theorem bind (free : value.ClosureFree) (scopes : Scopes) (scope : Nat) (name : Symbol) :
    StayFree scopes (scopes.bind scope name value) := by
  refine ⟨fun other _ => scopes.map_outer_bind scope name value other, ?_⟩
  intro other free' found held binding member
  rw [Scopes.bind, Array.getElem?_modify] at held
  split at held
  · obtain ⟨found', held', rfl⟩ := Option.map_eq_some_iff.1 held
    rcases mem_rebind member with rfl | member
    · exact free
    · exact free' found' held' binding member
  · exact free' found held binding member

theorem push (scopes : Scopes) (outer : Nat) : StayFree scopes (scopes.push (.inside outer)) := by
  refine ⟨fun scope made => ?_, fun scope free found held => ?_⟩
  · rw [Array.getElem?_push, if_neg (by omega)]
  · rw [Array.getElem?_push] at held
    split at held
    · cases held
      exact nofun
    · exact free found held

theorem freeAlong (stay : StayFree before after) (along : before.FreeAlong scope) :
    after.FreeAlong scope := by
  have made := along.made
  have same : after.chain scope = before.chain scope :=
    chain_congr fun seen earlier => stay.outer seen (by omega)
  refine ⟨Nat.lt_of_lt_of_le made stay.size_le, ?_⟩
  intro seen member
  exact stay.free seen (along.free seen (same ▸ member))

end StayFree

namespace FreeAlong

variable {scopes : Scopes}

/-- Where no closure is bound at all, none is bound along any scope. -/
theorem of_hold (hold : scopes.Hold ClosureFree) (made : scope < scopes.size) :
    scopes.FreeAlong scope :=
  ⟨made, fun _ _ found held binding member =>
    hold found (Array.mem_of_getElem? held) binding member⟩

/-- A new scope inside one along which there is no closure is another such scope. -/
theorem push (along : scopes.FreeAlong scope) :
    FreeAlong (scopes.push (.inside scope)) scopes.size := by
  have made := along.made
  have stay := StayFree.push scopes scope
  have chained : chain (scopes.push (.inside scope)) scopes.size =
      scopes.size :: chain (scopes.push (.inside scope)) scope := by
    rw [chain]
    simp [Scope.inside, made]
  refine ⟨by simp, ?_⟩
  intro seen member
  rw [chained] at member
  rcases List.mem_cons.1 member with rfl | member
  · exact stay.free _ (by simp [FreeAt])
  · exact (stay.freeAlong along).free seen member

theorem lookup (along : scopes.FreeAlong scope)
    (found : scopes.lookup scope name = some value) : value.ClosureFree := by
  obtain ⟨seen, member, found⟩ := List.exists_of_findSome?_eq_some found
  obtain ⟨scope', held, found⟩ := Option.bind_eq_some_iff.1 found
  obtain ⟨before, after, same, -⟩ := List.lookup_eq_some_iff.1 found
  exact along.free seen member scope' held (name, value) (by simp [same])

end FreeAlong

end Scopes

/-! ### Evaluation that binds no closure -/

/-- The course from stores without a closure along a scope: no closure is bound, and the allowed depth is
not used up. -/
def stayingFree (scope : Nat) : Course where
  ready store := store.scopes.FreeAlong scope
  leads before after := before.scopes.StayFree after.scopes
  halts halt := halt ≠ .exhausted

theorem stayingFree_lasting (scope : Nat) : (stayingFree scope).Lasting :=
  ⟨fun store => .refl store.scopes, Scopes.StayFree.trans, Scopes.StayFree.freeAlong⟩

/-- What is evaluated without closures, if forms are nested no deeper than one level more than given. -/
def firstOrder (depth : Nat) : Reach Nat where
  scope scope := scope
  inside _ new := new
  whole _ := FirstOrder (depth + 1)
  inner _ := FirstOrder depth
  allows _ form := form ≠ .lambda
  data := ClosureFree

theorem firstOrder_closed (depth : Nat) : (firstOrder depth).Closed where
  scope_inside := rfl
  hereditary := closureFree_hereditary
  child := FirstOrder.child
  part := FirstOrder.part
  enclosed order := order
  itself order := order.free
  quoted order := order.free
  head := by
    rintro _ head operands _ order found rfl
    -- The head would be the very symbol that the form does not contain.
    have named := SpecialForm.eq_of_ofHead? found
    subst named
    exact order.noLambda (.of_mem_children List.mem_cons_self)
  define_inside := nofun
  makes allowed := (allowed rfl).elim
  body free := (free _ _ _ _ .self).elim

theorem stayingFree_steers (depth : Nat) : (firstOrder depth).Steers stayingFree where
  lasting := stayingFree_lasting
  truthful _ := nofun
  record store _ _ := .refl store.scopes
  bind store _ free _ := .bind free store.scopes _ _
  number store _ := .refl store.scopes
  lookup _ _ along found := along.lookup found
  call each := EvalM.keeps_call (stayingFree_lasting _) (fun _ store _ => .refl store.scopes)
    (fun _ store _ => .refl store.scopes) (fun _ _ => nofun) fun _ given =>
      Primitive.result_passes closureFree_hereditary _ each given
  enter store along :=
    ⟨along.push, fun _ stay => (Scopes.StayFree.push store.scopes _).trans stay, fun _ other => other⟩
  enterCall _ free := (free _ _ _ _ .self).elim

/-- Within its depth the evaluator is done with a form without closures: each call of the evaluator on
itself goes to a part of the form. -/
theorem evaluate_staysFree (depth scope : Nat) (order : FirstOrder depth form) :
    (evaluate depth scope form).Keeps (stayingFree scope) ClosureFree := by
  induction depth generalizing scope form with
  | zero =>
    have deep := Value.nesting_pos form
    have shallow := order.shallow
    omega
  | succ depth ih =>
    exact Reach.evaluateStep_keeps (firstOrder_closed depth) (stayingFree_steers depth)
      (fun scope _ order => ih scope order) order

/-- A form in which neither a closure nor the name of the form that makes closures occurs, evaluated in a
scope along which no closure is bound, has a value or an error as soon as the depth is as great as the
nesting of the form, and more depth changes nothing. No closure occurs in the value, and none is bound
afterwards: neither along the scope, nor in any scope where none was bound before, nor in a new one. -/
theorem evaluation_without_closures_ends (free : form.ClosureFree)
    (noLambda : ¬ form.Contains (.sym ⟨"fn*"⟩)) (along : store.scopes.FreeAlong scope) :
    let evaluation := evaluate form.nesting scope form
    ((∃ value, evaluation.outcome store = .ok value ∧ value.ClosureFree) ∨
      ∃ error, evaluation.outcome store = .error (.error error)) ∧
    (∀ depth, form.nesting ≤ depth →
      (evaluate depth scope form).outcome store = evaluation.outcome store ∧
        (evaluate depth scope form).after store = evaluation.after store) ∧
    (evaluation.after store).scopes.FreeAlong scope ∧
    ∀ other, store.scopes.FreeAt other → (evaluation.after store).scopes.FreeAt other := by
  intro evaluation
  have order : FirstOrder form.nesting form := ⟨Nat.le_refl _, free, noLambda⟩
  have kept := evaluate_staysFree form.nesting scope order store along
  have ends : evaluation.outcome store ≠ .error .exhausted := fun ended => kept.halts _ ended rfl
  refine ⟨?_, ?_, kept.leads.freeAlong along, kept.leads.free⟩
  · match ended : evaluation.outcome store with
    | .ok value => exact .inl ⟨value, rfl, kept.fine value ended⟩
    | .error (.error error) => exact .inr ⟨error, rfl⟩
    | .error .exhausted => exact (ends ended).elim
  · intro depth enough
    obtain ⟨more, rfl⟩ := Nat.exists_eq_add_of_le enough
    exact evaluate_deeper ends more

/-- A local scope whose parts are evaluated one in the other. A smaller depth would not do. -/
theorem evaluation_without_closures_ends_let :
    let form := Value.list [.sym ⟨"let*"⟩, .list [.sym ⟨"n"⟩, .num 1],
      .vec [.list [.sym ⟨"+"⟩, .sym ⟨"n"⟩, .num 2], .sym ⟨"n"⟩]]
    form.ClosureFree ∧ ¬ form.Contains (.sym ⟨"fn*"⟩) ∧ Store.initial.scopes.FreeAlong 0 ∧
      (evaluate 100 0 form).outcome Store.initial = .ok (.vec [.num 3, .num 1]) ∧
      (evaluate 3 0 form).outcome Store.initial = .error .exhausted := by
  intro form
  have free : form.ClosureFree := by
    simp [form, ClosureFree, contains_list, contains_vec, contains_sym, contains_num]
  have noLambda : ¬ form.Contains (.sym ⟨"fn*"⟩) := by
    simp [form, contains_list, contains_vec, contains_sym, contains_num]
  have along : Store.initial.scopes.FreeAlong 0 :=
    .of_hold (.global closureFree_hereditary) (by decide)
  refine ⟨free, noLambda, along, ?_, by cbv⟩
  have enough := (evaluation_without_closures_ends free noLambda along).2.1 100 (by decide)
  rw [enough.1]
  cbv

end MiniLisp
