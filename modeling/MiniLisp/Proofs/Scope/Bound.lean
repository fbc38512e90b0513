import MiniLisp.Proofs.Eval.Closures
import MiniLisp.Scope

/-! The values that are bound in scopes. If all of them are of one kind, then so is what is found for a
name, and they stay so as long as only such values are bound. -/

namespace MiniLisp

theorem mem_rebind (member : binding ∈ rebind name value bindings) :
    binding = (name, value) ∨ binding ∈ bindings := by
  induction bindings with
  | nil => exact .inl (by simpa [rebind] using member)
  | cons first bindings ih =>
    rw [rebind] at member
    split at member
    · rcases List.mem_cons.1 member with same | member
      · exact .inl same
      · exact .inr (List.mem_cons_of_mem _ member)
    · rcases List.mem_cons.1 member with same | member
      · exact .inr (same ▸ List.mem_cons_self)
      · exact (ih member).imp_right (List.mem_cons_of_mem _)

/-- Every value that is bound in some scope is of a certain kind. -/
def Scopes.Hold (data : Value → Prop) (scopes : Scopes) : Prop :=
  ∀ scope ∈ scopes, ∀ binding ∈ scope.bindings, data binding.2

namespace Scopes.Hold

variable {data : Value → Prop} {scopes : Scopes}

theorem bind (hold : scopes.Hold data) (kind : data value) (place : Nat) (name : Symbol) :
    (scopes.bind place name value).Hold data := by
  intro scope member binding held
  obtain ⟨index, found⟩ := Array.getElem?_of_mem member
  rw [Scopes.bind, Array.getElem?_modify] at found
  split at found
  · obtain ⟨scope', found', rfl⟩ := Option.map_eq_some_iff.1 found
    rcases mem_rebind held with rfl | held
    · exact kind
    · exact hold scope' (Array.mem_of_getElem? found') binding held
  · exact hold scope (Array.mem_of_getElem? found) binding held

theorem push (hold : scopes.Hold data) (outer : Nat) : Hold data (scopes.push (.inside outer)) := by
  intro scope member
  rcases Array.mem_push.1 member with member | rfl
  · exact hold scope member
  · simp [Scope.inside]

theorem lookup (hold : scopes.Hold data) (found : scopes.lookup scope name = some value) :
    data value := by
  obtain ⟨seen, -, found⟩ := List.exists_of_findSome?_eq_some found
  obtain ⟨scope', held, found⟩ := Option.bind_eq_some_iff.1 found
  obtain ⟨before, after, same, -⟩ := List.lookup_eq_some_iff.1 found
  have member : (name, value) ∈ scope'.bindings := by simp [same]
  exact hold scope' (Array.mem_of_getElem? held) _ member

/-- In the scope in which a program starts there are primitives and nil. -/
theorem global (hereditary : Value.Hereditary data) : Hold data #[Scope.global] := by
  intro scope member binding held
  cases Array.mem_singleton.1 member
  rcases List.mem_append.1 held with held | held
  · obtain ⟨primitive, -, rfl⟩ := List.mem_map.1 held
    exact hereditary.prim primitive
  · cases List.mem_singleton.1 held
    exact hereditary.nil

end Scopes.Hold

end MiniLisp
