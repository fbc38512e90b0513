import MiniLisp.Proofs.Eval.Courses

/-! Which scopes evaluation can change. A definition binds in the scope where it stands, and every
other form binds in scopes that it makes itself, so at most one of the scopes that exist already is
written to. Not even a binding in that scope goes away. This holds over every evaluation, whether it
ends in a value, in an error or without an answer, and in stores of any shape.

A course is followed through the evaluator. A step on it may write to one scope at most, named by `own`;
a scope that a step makes for itself is new to all steps before it, and may be forgotten again. -/

namespace MiniLisp

/-- What may become of scopes when names are bound in new scopes and at most one old one. -/
structure Grows (own : Option Nat) (before after : Scopes) : Prop where
  apart : ∀ (scope : Nat) (found : Scope), before[scope]? = some found → own ≠ some scope →
    after[scope]? = some found
  lasting : ∀ (scope : Nat) (found : Scope), before[scope]? = some found →
    ∃ found' : Scope, after[scope]? = some found' ∧ found'.outer = found.outer ∧
      ∀ name, (found.get? name).isSome → (found'.get? name).isSome

namespace Grows

theorem refl (own : Option Nat) (scopes : Scopes) : Grows own scopes scopes := by
  refine ⟨fun _ _ held _ => held, ?_⟩
  intro scope found held
  exact ⟨found, held, rfl, fun _ bound => bound⟩

theorem trans (first : Grows own before middle) (second : Grows own middle after) :
    Grows own before after := by
  refine ⟨?_, ?_⟩
  · intro scope found held other
    exact second.apart scope found (first.apart scope found held other) other
  · intro scope found held
    obtain ⟨found', held', outer', bound'⟩ := first.lasting scope found held
    obtain ⟨found'', held'', outer'', bound''⟩ := second.lasting scope found' held'
    exact ⟨found'', held'', outer''.trans outer', fun name bound => bound'' name (bound' name bound)⟩

/-- A scope that was not there before need not be named. -/
theorem forget {inner : Nat} (grows : Grows (some inner) before after)
    (fresh : before.size ≤ inner) : Grows own before after := by
  refine ⟨?_, grows.lasting⟩
  intro scope found held _
  have old : scope < before.size := (Array.getElem?_eq_some_iff.1 held).1
  apply grows.apart scope found held
  intro same
  cases same
  omega

theorem push (own : Option Nat) (scopes : Scopes) (scope : Scope) :
    Grows own scopes (scopes.push scope) := by
  have kept : ∀ (old : Nat) (found : Scope), scopes[old]? = some found →
      (scopes.push scope)[old]? = some found := by
    intro old found held
    have bound : old < scopes.size := (Array.getElem?_eq_some_iff.1 held).1
    rw [Array.getElem?_push, if_neg (by omega), held]
  refine ⟨fun old found held _ => kept old found held, ?_⟩
  intro old found held
  exact ⟨found, kept old found held, rfl, fun _ bound => bound⟩

theorem bind (scopes : Scopes) (scope : Nat) (name : Symbol) (value : Value) :
    Grows (some scope) scopes (scopes.bind scope name value) := by
  refine ⟨?_, ?_⟩
  · intro old found held other
    have apart : scope ≠ old := fun same => other (congrArg some same)
    rw [Scopes.bind, Array.getElem?_modify, if_neg apart, held]
  · intro old found held
    by_cases same : scope = old
    · refine ⟨found.bind name value, ?_, rfl, ?_⟩
      · rw [Scopes.bind, Array.getElem?_modify, if_pos same, held]
        rfl
      · intro other bound
        rw [Scope.get?_bind]
        split
        · rfl
        · exact bound
    · refine ⟨found, ?_, rfl, fun _ bound => bound⟩
      rw [Scopes.bind, Array.getElem?_modify, if_neg same, held]

end Grows

theorem Store.enter_grows (store : Store) (outer : Nat) (params : Params) (arguments : List Value) :
    Grows (some store.scopes.size) store.scopes (store.enter outer params arguments).scopes := by
  refine Store.enter_induction
    (motive := fun begun => Grows (some store.scopes.size) store.scopes begun.scopes) ?_ ?_
  · exact .push _ store.scopes (.inside outer)
  · exact fun begun grows binding _ => grows.trans (.bind begun.scopes _ binding.1 binding.2)

/-! ### Steps that bind nothing in a scope of others -/

/-- The course after which at most one of the scopes before it is bound in. -/
def growing (own : Option Nat) : Course where
  ready _ := True
  leads before after := Grows own before.scopes after.scopes
  halts _ := True

/-- A step after which at most one of the scopes before it is bound in. -/
abbrev EvalM.Spares (own : Option Nat) (computation : EvalM α) : Prop :=
  computation.Keeps (growing own) fun _ => True

theorem growing_lasting (own : Option Nat) : (growing own).Lasting :=
  ⟨fun store => .refl own store.scopes, Grows.trans, fun _ _ => trivial⟩

/-- What is done in a scope of its own is not seen from outside. -/
theorem growing_within (own : Option Nat) (store : Store) (outer : Nat) (params : Params)
    (arguments : List Value) :
    (growing (some store.scopes.size)).Within (growing own) (store.enter outer params arguments)
      store := by
  refine ⟨trivial, fun later grows => ?_, fun _ _ => trivial⟩
  exact ((store.enter_grows outer params arguments).trans grows).forget (Nat.le_refl _)

namespace EvalM

theorem spares_takeSerial (own : Option Nat) : takeSerial.Spares own :=
  keeps_modifyGet (fun _ _ => trivial) fun store _ => .refl own store.scopes

theorem spares_lookup (own : Option Nat) (scope : Nat) (name : Symbol) :
    (lookup scope name).Spares own :=
  keeps_lookup (growing_lasting own) (fun _ _ _ _ => trivial) trivial

theorem spares_call (own : Option Nat) (primitive : Primitive) (arguments : List Value) :
    (record (.primitive primitive arguments.length) >>= fun _ =>
      primitive.run arguments).Spares own :=
  keeps_call (growing_lasting own) (fun _ store _ => .refl own store.scopes)
    (fun _ store _ => .refl own store.scopes) (fun _ _ => trivial) fun _ _ => trivial

end EvalM

/-! ### The evaluator -/

/-- The forms that may be evaluated in a scope: any form if its definitions are allowed to bind
there, and otherwise those without definitions. -/
def Permits (own : Option Nat) (scope : Nat) (form : Value) : Prop :=
  own = some scope ∨ ¬ form.Contains (.sym ⟨SpecialForm.define.name⟩)

theorem Permits.part {inner : Value} (permits : Permits own scope form)
    (part : form.Contains inner) : Permits own scope inner := by
  rcases permits with same | absent
  · exact .inl same
  · exact .inr fun defines => absent (part.trans defines)

theorem Permits.child {inner : Value} (permits : Permits own scope form)
    (held : inner ∈ form.children) : Permits own scope inner :=
  permits.part (.of_mem_children held)

theorem SpecialForm.eq_of_ofHead? (found : ofHead? head = some form) : head = .sym ⟨form.name⟩ := by
  cases head with
  | sym symbol =>
    have named := List.find?_some found
    rw [beq_iff_eq] at named
    rw [named]
  | _ => cases found

/-- What is evaluated in a scope if definitions may bind in one scope only, this one or another. -/
def permitted : Reach (Option Nat × Nat) where
  scope place := place.2
  inside _ new := (some new, new)
  whole place form := Permits place.1 place.2 form
  inner place form := Permits place.1 place.2 form
  allows place form := form = .define → place.1 = some place.2
  data _ := True

theorem permitted_closed : permitted.Closed where
  scope_inside := rfl
  hereditary := ⟨fun _ _ => trivial, fun _ _ _ => trivial, fun _ => trivial⟩
  child := Permits.child
  part := Permits.child
  enclosed _ := .inl rfl
  itself _ := trivial
  quoted _ := trivial
  head := by
    rintro place head operands _ permits found rfl
    rcases permits with same | absent
    · exact same
    · -- The head would be the very symbol that the form does not contain.
      have named := SpecialForm.eq_of_ofHead? found
      subst named
      exact (absent (.of_mem_children List.mem_cons_self)).elim
  define_inside _ := rfl
  makes _ _ := trivial
  body _ := .inl rfl

theorem growing_steers : permitted.Steers fun place => growing place.1 where
  lasting place := growing_lasting place.1
  truthful _ := trivial
  record store _ _ := .refl _ store.scopes
  bind store allowed _ _ := by
    rw [allowed rfl]
    exact .bind store.scopes _ _ _
  number store _ := .refl _ store.scopes
  lookup _ _ _ _ := trivial
  call _ := EvalM.spares_call _ _ _
  enter store _ := growing_within _ store _ _ _
  enterCall store _ _ _ := growing_within _ store _ _ _

/-- A form binds where it is permitted to. -/
theorem evaluate_spares (depth : Nat) (permits : Permits own scope form) :
    (evaluate depth scope form).Spares own :=
  Reach.evaluate_keeps permitted_closed growing_steers id (fun _ => trivial) depth (own, scope) form
    permits

theorem apply_spares (depth : Nat) (own : Option Nat) (function : Value) (arguments : List Value) :
    (apply (evaluate depth) function arguments).Spares own :=
  Reach.apply_keeps permitted_closed growing_steers id (fun _ => trivial) depth
    (own, Store.globalScope) trivial fun _ _ => trivial

/-- Evaluating a form changes no scope that exists already, except that the scope of the form may
get bindings; it loses none. Applying a function changes no such scope at all, and neither does a form
without definitions. -/
theorem evaluation_spares_scopes :
    (∀ depth scope form store,
      Grows (some scope) store.scopes ((evaluate depth scope form).after store).scopes) ∧
    (∀ depth function arguments store,
      Grows none store.scopes ((apply (evaluate depth) function arguments).after store).scopes) ∧
    ∀ depth scope form store, ¬ form.Contains (.sym ⟨"def!"⟩) →
      Grows none store.scopes ((evaluate depth scope form).after store).scopes := by
  refine ⟨?_, ?_, ?_⟩
  · intro depth scope form store
    exact (evaluate_spares depth (.inl rfl) store trivial).leads
  · intro depth function arguments store
    exact (apply_spares depth none function arguments store trivial).leads
  · intro depth scope form store absent
    exact (evaluate_spares depth (.inr absent) store trivial).leads

/-- A local scope leaves the names of the global one alone. -/
theorem evaluation_spares_scopes_let :
    ((evaluate 3 0 (.list [.sym ⟨"let*"⟩, .list [.sym ⟨"list"⟩, .list []], .sym ⟨"list"⟩])).after
      Store.initial).scopes[0]? = some Scope.global := by
  have absent : ¬ (Value.list [.sym ⟨"let*"⟩, .list [.sym ⟨"list"⟩, .list []],
      .sym ⟨"list"⟩]).Contains (.sym ⟨"def!"⟩) := by
    simp [Value.contains_list, Value.contains_sym]
  obtain ⟨-, -, unchanged⟩ := evaluation_spares_scopes
  have grows := unchanged 3 0 _ Store.initial absent
  exact grows.apart 0 Scope.global rfl (by simp)

end MiniLisp
