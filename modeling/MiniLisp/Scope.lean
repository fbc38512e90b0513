import MiniLisp.Names
import MiniLisp.Value.Basic

/-! Lexical scopes. A scope holds its own bindings and the number of the scope around it. Scopes are
numbered in the order of making, so the scope around another is an earlier one and every way
outward ends. -/

namespace MiniLisp

/-- The bindings made in one scope, each name once, and the scope around it (`Frame`). -/
structure Scope where
  outer : Option Nat
  bindings : List (Symbol × Value)
deriving Inhabited

/-- Bindings with one name bound anew: in its old place, or else at the end. -/
def rebind (name : Symbol) (value : Value) : List (Symbol × Value) → List (Symbol × Value)
  | [] => [(name, value)]
  | (other, held) :: bindings =>
    if other = name then (name, value) :: bindings
    else (other, held) :: rebind name value bindings

theorem lookup_rebind (name other : Symbol) (value : Value) (bindings : List (Symbol × Value)) :
    (rebind name value bindings).lookup other =
      if other = name then some value else bindings.lookup other := by
  induction bindings with
  | nil =>
    by_cases same : other = name
    · simp [rebind, same]
    · simp [rebind, List.lookup_cons, beq_false_of_ne same, same]
  | cons binding bindings ih =>
    obtain ⟨held, old⟩ := binding
    rw [rebind]
    split
    · next h =>
      subst h
      by_cases same : other = held
      · simp [same]
      · simp [List.lookup_cons, beq_false_of_ne same, same]
    · next apart =>
      rw [List.lookup_cons, List.lookup_cons, ih]
      by_cases same : other = name
      · subst same
        simp [beq_false_of_ne (Ne.symm apart)]
      · simp [same]

namespace Scope

/-- A scope without bindings inside another one (`Environment.new_enclosed`). -/
def inside (outer : Nat) : Scope := ⟨some outer, []⟩

/-- A scope without bindings that stands alone (`Environment.new`). -/
def outermost : Scope := ⟨none, []⟩

/-- The value of a name that is bound in this scope (`Environment.contains_local`). -/
def get? (scope : Scope) (name : Symbol) : Option Value := scope.bindings.lookup name

/-- The scope with a name bound in it (`Environment.set`). -/
def bind (scope : Scope) (name : Symbol) (value : Value) : Scope :=
  { scope with bindings := rebind name value scope.bindings }

/-- The names bound in this scope. -/
def names (scope : Scope) : List String := scope.bindings.map fun binding => binding.1.name

/-- The scope in which a program starts: every primitive under its name, and nil
(`Environment.new_global_populated`). -/
def global : Scope :=
  ⟨none, Primitive.all.map (fun primitive => (⟨primitive.name⟩, .prim primitive)) ++
    [(⟨"nil"⟩, .nil)]⟩

theorem get?_bind (scope : Scope) (name other : Symbol) (value : Value) :
    (scope.bind name value).get? other = if other = name then some value else scope.get? other :=
  lookup_rebind name other value scope.bindings

end Scope

/-- All scopes that were made so far. A scope is known by its place. -/
abbrev Scopes := Array Scope

namespace Scopes

/-- The scopes seen from one scope, itself first and the outermost last. -/
def chain (scopes : Scopes) (scope : Nat) : List Nat :=
  match scopes[scope]? with
  | none => []
  | some found =>
    match found.outer with
    | none => [scope]
    | some outer => if outer < scope then scope :: chain scopes outer else [scope]
termination_by scope

/-- The value of a name as seen from a scope: the nearest scope that binds it decides
(`Environment.get`). -/
def lookup (scopes : Scopes) (scope : Nat) (name : Symbol) : Option Value :=
  (chain scopes scope).findSome? fun seen => scopes[seen]?.bind fun found => found.get? name

/-- The names that can be seen from a scope, in rising order (`Environment.get_identifiers`). -/
def visible (scopes : Scopes) (scope : Nat) : List String :=
  Names.sort ((chain scopes scope).flatMap fun seen =>
    match scopes[seen]? with
    | some found => found.names
    | none => [])

/-- Binds a name in one scope. -/
def bind (scopes : Scopes) (scope : Nat) (name : Symbol) (value : Value) : Scopes :=
  scopes.modify scope fun found => found.bind name value

end Scopes

end MiniLisp
