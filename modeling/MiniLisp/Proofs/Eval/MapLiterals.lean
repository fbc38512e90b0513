import MiniLisp.Proofs.Eval.Steps
import MiniLisp.Proofs.Value.Lookup

/-! Map literals. Evaluation inserts an entry as soon as its key and its value are evaluated, so that
insertions and the effects of later entries take turns. This comes to the same as to evaluate all keys
and values first, from left to right, and then to build a map of what they gave: insertion has no
effect, and the values of an even number of forms always make a map. -/

namespace MiniLisp

/-- Evaluates the key and the value of every entry, from left to right. -/
def evaluatePairs (eval : Evaluator) (scope : Nat) (entries : Entries) : EvalM Entries :=
  entries.mapM fun entry => do
    let key ← eval scope entry.1
    let value ← eval scope entry.2
    pure (key, value)

section
variable (eval : Evaluator) (scope : Nat)

/-- The flat sequence of keys and values is evaluated to the flat sequence of what the entries give. -/
theorem mapM_flat_eq_evaluatePairs (entries : Entries) :
    entries.flat.mapM (eval scope) =
      evaluatePairs eval scope entries >>= fun pairs => pure (Entries.flat pairs) := by
  unfold evaluatePairs
  induction entries with
  | nil => rfl
  | cons entry entries ih =>
    have flat : Entries.flat (entry :: entries) = entry.1 :: entry.2 :: Entries.flat entries := rfl
    simp only [flat, List.mapM_cons, ih, bind_assoc, pure_bind]
    rfl

/-- Insertion can wait until all entries are evaluated. -/
theorem evaluateEntries_eq_merge (entries : Entries) :
    evaluateEntries eval scope entries =
      evaluatePairs eval scope entries >>= fun pairs => pure (Entries.merge pairs) := by
  unfold evaluateEntries evaluatePairs Entries.merge
  generalize ([] : Entries) = built
  induction entries generalizing built with
  | nil => rfl
  | cons entry entries ih =>
    simp only [List.foldlM_cons, List.mapM_cons, List.foldl_cons, ih, bind_assoc, pure_bind]

end

/-- A key is only added behind keys that are not equal to it. -/
theorem Entries.merge_keys_apart (entries : Entries) :
    (merge entries).keys.Pairwise fun key later => key.equals later = false := by
  induction entries using List.reverseRecOn with
  | nil => exact .nil
  | append_singleton entries entry ih =>
    rw [merge_concat]
    rcases keys_insert (merge entries) entry.1 entry.2 with same | ⟨apart, longer⟩
    · rwa [same]
    · rw [longer, List.pairwise_append]
      refine ⟨ih, List.pairwise_singleton _ _, ?_⟩
      intro held member last isLast
      obtain ⟨earlier, inside, rfl⟩ := List.mem_map.1 member
      rw [List.mem_singleton.1 isLast]
      exact apart earlier inside

/-- A map literal ends like the evaluation of its keys and values in turn, if that gives no value, and
leaves the same state. Otherwise their values make a map, the literal ends with this map, and the state
differs from the one that they leave only in the number that the new map takes. No key of the map is equal
to a later one. -/
theorem map_literals_are_built_from_values (depth scope : Nat) (origin : Origin) (entries : Entries)
    (store : Store) :
    let parts := entries.flat.mapM (evaluate depth scope)
    let literal := evaluate (depth + 1) scope (.map origin entries)
    (∀ halt, parts.outcome store = .error halt →
      literal.outcome store = .error halt ∧ literal.after store = parts.after store) ∧
    ∀ values, parts.outcome store = .ok values →
      ∃ built, Entries.ofFlat? values = some built ∧
        literal.outcome store = .ok (.map (.made (parts.after store).serial) built) ∧
        literal.after store =
          { parts.after store with serial := (parts.after store).serial + 1 } ∧
        built.keys.Pairwise fun key later => key.equals later = false := by
  intro parts literal
  let pairs := evaluatePairs (evaluate depth) scope entries
  have flatten : parts = pairs >>= fun found => pure (Entries.flat found) :=
    mapM_flat_eq_evaluatePairs (evaluate depth) scope entries
  have build : literal = pairs >>= fun found => EvalM.takeSerial >>= fun serial =>
      pure (.map (.made serial) (Entries.merge found)) := by
    have unfolded : literal = evaluateEntries (evaluate depth) scope entries >>= fun built =>
      EvalM.takeSerial >>= fun serial => pure (.map (.made serial) built) := rfl
    rw [unfolded, evaluateEntries_eq_merge]
    simp only [bind_assoc, pure_bind]
    rfl
  rw [flatten, build]
  cases ended : pairs.outcome store with
  | error halt =>
    have first := EvalM.outcome_bind_of_error (fun found => pure (Entries.flat found)) ended
    have whole := EvalM.outcome_bind_of_error (fun found => EvalM.takeSerial >>= fun serial =>
      pure (Value.map (.made serial) (Entries.merge found))) ended
    rw [first.1, first.2, whole.1, whole.2]
    refine ⟨?_, nofun⟩
    rintro _ ⟨⟩
    exact ⟨rfl, rfl⟩
  | ok found =>
    have first := EvalM.outcome_bind_of_ok (fun found => pure (Entries.flat found)) ended
    have whole := EvalM.outcome_bind_of_ok (fun found => EvalM.takeSerial >>= fun serial =>
      pure (Value.map (.made serial) (Entries.merge found))) ended
    rw [first.1, first.2, whole.1, whole.2]
    refine ⟨nofun, ?_⟩
    rintro _ ⟨⟩
    refine ⟨Entries.merge found, ?_, rfl, rfl, Entries.merge_keys_apart found⟩
    rw [Entries.ofFlat?, Entries.pairUp?_flat]
    rfl

/-- Keys that only become equal when they are evaluated, and an entry behind them that fails. -/
theorem map_literals_are_built_from_values_repeated :
    (evaluate 3 0 (.map (.literal 0) [(.num 3, .list [.sym ⟨"def!"⟩, .sym ⟨"x"⟩, .num 1]),
        (.list [.sym ⟨"+"⟩, .num 1, .num 2], .sym ⟨"x"⟩)])).outcome Store.initial =
      .ok (.map (.made 0) [(.num 3, .num 1)]) ∧
    (evaluate 3 0 (.map (.literal 0) [(.num 3, .list [.sym ⟨"def!"⟩, .sym ⟨"x"⟩, .num 1]),
        (.sym ⟨"y"⟩, .sym ⟨"x"⟩)])).outcome Store.initial = .error (.error (.unbound ⟨"y"⟩)) := by
  refine ⟨?_, ?_⟩
  · obtain ⟨-, built⟩ := map_literals_are_built_from_values 2 0 (.literal 0)
      [(.num 3, .list [.sym ⟨"def!"⟩, .sym ⟨"x"⟩, .num 1]),
        (.list [.sym ⟨"+"⟩, .num 1, .num 2], .sym ⟨"x"⟩)] Store.initial
    obtain ⟨entries, merged, ends, -⟩ := built [.num 3, .num 1, .num 3, .num 1] (by cbv)
    rw [ends]
    have same : Entries.ofFlat? [.num 3, .num 1, .num 3, .num 1] = some [(.num 3, .num 1)] := by cbv
    rw [same] at merged
    cases merged
    cbv
  · obtain ⟨failed, -⟩ := map_literals_are_built_from_values 2 0 (.literal 0)
      [(.num 3, .list [.sym ⟨"def!"⟩, .sym ⟨"x"⟩, .num 1]), (.sym ⟨"y"⟩, .sym ⟨"x"⟩)] Store.initial
    exact (failed (.error (.unbound ⟨"y"⟩)) (by cbv)).1

end MiniLisp
