import MiniLisp.Proofs.Eval.Coupling

/-! What an evaluation does not depend on. A greater depth changes nothing if the smaller one is
enough, and what stands in the log before changes nothing but the log. -/

namespace MiniLisp

open Value

/-! ### Depth -/

/-- Runs from one store, of which the first may use up its depth. -/
def depthCoupling : Coupling where
  code _ := True
  level store store' := store = store'
  stop := .exhausted
  parted _ _ := True

theorem depthCoupling_keeps (change : Store → Store) : depthCoupling.Keeps change :=
  ⟨fun _ _ same => congrArg change same, fun _ _ _ => trivial⟩

theorem depthCoupling_lawful : depthCoupling.Lawful where
  part _ _ := trivial
  body _ := trivial
  nil := trivial
  numbers := by
    rintro store _ rfl
    exact ⟨rfl, rfl⟩
  record _ _ := depthCoupling_keeps _
  bind _ _ _ _ := depthCoupling_keeps _
  addScope _ := depthCoupling_keeps _
  number := depthCoupling_keeps _
  lookup scope name _ := by
    refine Coupling.lookup_inStep ?_ fun _ _ value _ _ => carries_of_all (fun _ => trivial) value
    rintro store _ rfl
    rfl
  call primitive arguments each := by
    refine Coupling.call_inStep (fun _ => depthCoupling_keeps _) (fun text => ?_) each
    refine Coupling.write_inStep (depthCoupling_keeps _) ?_
    rintro store _ rfl
    rfl

theorem evaluate_deeper_inStep (depth more : Nat) :
    depthCoupling.EvaluatesInStep (evaluate depth) (evaluate (depth + more)) := by
  induction depth with
  | zero =>
    intro scope form _
    refine ⟨fun store store' _ => ⟨fun value _ => carries_of_all (fun _ => trivial) value, ?_⟩,
      fun _ _ _ => ⟨fun value _ => carries_of_all (fun _ => trivial) value, trivial⟩⟩
    exact .inr ⟨rfl, trivial⟩
  | succ depth ih =>
    rw [Nat.succ_add]
    exact Coupling.evaluateStep_inStep depthCoupling_lawful ih

/-- An evaluation that ends within a depth ends alike within every greater one, and does the same. -/
theorem evaluate_deeper (ends : (evaluate depth scope form).outcome store ≠ .error .exhausted)
    (more : Nat) :
    (evaluate (depth + more) scope form).outcome store = (evaluate depth scope form).outcome store ∧
      (evaluate (depth + more) scope form).after store =
        (evaluate depth scope form).after store := by
  have runs := evaluate_deeper_inStep depth more scope form trivial
  rcases (runs.level store store rfl).2 with ⟨same, level⟩ | ⟨stopped, -⟩
  · exact ⟨same, level.symm⟩
  · exact (ends stopped).elim

/-- A call that ends within a depth ends alike within every greater one, and does the same. -/
theorem apply_deeper (ends : (apply (evaluate depth) function arguments).outcome store ≠
      .error .exhausted) (more : Nat) :
    (apply (evaluate (depth + more)) function arguments).outcome store =
        (apply (evaluate depth) function arguments).outcome store ∧
      (apply (evaluate (depth + more)) function arguments).after store =
        (apply (evaluate depth) function arguments).after store := by
  have carried : ∀ value : Value, value.Carries depthCoupling.code :=
    Value.carries_of_all fun _ => trivial
  have runs := Coupling.apply_inStep depthCoupling_lawful (evaluate_deeper_inStep depth more)
    (carried function) fun argument (_ : argument ∈ arguments) => carried argument
  rcases (runs.level store store rfl).2 with ⟨same, level⟩ | ⟨stopped, -⟩
  · exact ⟨same, level.symm⟩
  · exact (ends stopped).elim

/-! ### The log -/

/-- The state with an empty log. -/
def Store.unlogged (store : Store) : Store := { store with log := #[] }

/-- Runs from stores that differ in their logs at most. -/
def logCoupling : Coupling where
  code _ := True
  level store store' := store.unlogged = store'.unlogged
  stop := .exhausted
  parted _ _ := False

theorem logCoupling_keeps {change : Store → Store}
    (alike : ∀ store, (change store).unlogged = (change store.unlogged).unlogged) :
    logCoupling.Keeps change := by
  refine ⟨?_, fun _ _ parted => parted⟩
  intro store store' level
  change (change store).unlogged = (change store').unlogged
  rw [alike store, alike store']
  exact congrArg (fun store => (change store).unlogged) level

theorem logCoupling_lawful : logCoupling.Lawful where
  part _ _ := trivial
  body _ := trivial
  nil := trivial
  numbers _ _ level := ⟨(congrArg Store.serial level).symm,
    (congrArg (fun store : Store => store.scopes.size) level).symm⟩
  record _ _ := logCoupling_keeps fun _ => rfl
  bind _ _ _ _ := logCoupling_keeps fun _ => rfl
  addScope _ := logCoupling_keeps fun _ => rfl
  number := logCoupling_keeps fun _ => rfl
  lookup scope name _ := by
    refine Coupling.lookup_inStep ?_ fun _ _ value _ _ => carries_of_all (fun _ => trivial) value
    intro store store' level
    exact (congrArg (fun store : Store => store.scopes.lookup scope name) level).symm
  call primitive arguments each := by
    refine Coupling.call_inStep (fun _ => logCoupling_keeps fun _ => rfl) (fun text => ?_) each
    refine Coupling.write_inStep (logCoupling_keeps fun _ => rfl) ?_
    exact fun store store' level => (congrArg Store.device level).symm

/-- From stores that differ in their logs at most, an evaluation ends alike and leaves such stores. -/
theorem evaluate_unlogged (alike : store.unlogged = store'.unlogged) (depth scope : Nat)
    (form : Value) :
    (evaluate depth scope form).outcome store' = (evaluate depth scope form).outcome store ∧
      ((evaluate depth scope form).after store).unlogged =
        ((evaluate depth scope form).after store').unlogged := by
  have runs := Coupling.evaluate_inStep logCoupling_lawful depth scope form trivial
  rcases (runs.level store store' alike).2 with step | ⟨-, parted⟩
  · exact step
  · exact parted.elim

end MiniLisp
