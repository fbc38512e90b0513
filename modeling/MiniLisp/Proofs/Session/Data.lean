import MiniLisp.Proofs.Reader.RoundTrip
import MiniLisp.Proofs.Session.Lines
import MiniLisp.Proofs.Value.Lookup

/-! Data that stand for themselves. A session that gets the printed form of constants, words, texts,
keywords, empty lists, and of vectors and maps of such values, answers with this same printed form and
does nothing else. A vector is made anew from the values of its elements, a map by inserting the values
of its entries one after the other; as no key is equal to a later one, no entry replaces another. -/

namespace MiniLisp

open Value

/-- Values whose printed form stands for the value itself. -/
inductive Datum : Value → Prop where
  | nil : Datum .nil
  | bool : Datum (.bool b)
  | num : Datum (.num n)
  | str : Datum (.str text)
  | keyword {name : String} (atom : IsAtom name.toList)
      (keyword : (Symbol.mk name).isKeyword = true) : Datum (.sym ⟨name⟩)
  | empty : Datum (.list [])
  | vec (each : ∀ item ∈ items, Datum item) : Datum (.vec items)
  | map {entries : Entries} (keys : ∀ entry ∈ entries, Datum entry.1)
      (values : ∀ entry ∈ entries, Datum entry.2)
      (distinct : entries.Pairwise fun entry later => entry.1.equals later.1 = false) :
      Datum (.map origin entries)

/-! ### What data are -/

theorem atomValue_keyword {name : String} (keyword : (Symbol.mk name).isKeyword = true)
    (span : Span) : atomValue name span = .ok (.sym ⟨name⟩) := by
  obtain ⟨rest, colon⟩ : ∃ rest, name.toList = ':' :: rest := by
    have head := beq_iff_eq.1 keyword
    exact List.head?_eq_some_iff.1 head
  refine atomValue_eq_ok_iff.2 (.inr (.inr (.inr ⟨?_, .inl ⟨?_, rfl⟩⟩)))
  · rintro constant
    simp only [constantAtoms, List.mem_cons, List.not_mem_nil, or_false] at constant
    rcases constant with rfl | rfl | rfl <;> cases keyword
  · have unspelled : Number.digits? (':' :: rest) = none := by simp [Number.digits?]
    rw [colon, Number.spelled?, unspelled]
    · rfl
    · simp
    · simp

namespace Datum

theorem readable (datum : Datum value) : Readable value := by
  induction datum with
  | nil => exact .nil
  | bool => exact .bool
  | num => exact .num
  | str => exact .str
  | keyword atom keyword => exact .sym atom (atomValue_keyword keyword)
  | empty => exact .list (List.forall_mem_nil _)
  | vec each ih => exact .vec ih
  | map keys values distinct ihKeys ihValues => exact .map ihKeys ihValues

theorem child (datum : Datum value) (held : item ∈ value.children) : Datum item := by
  cases datum with
  | vec each => exact each item held
  | map keys values distinct =>
    obtain ⟨entry, member, rfl | rfl⟩ := Entries.mem_flat.1 held
    · exact keys entry member
    · exact values entry member
  | _ => cases held

theorem part {inner : Value} (datum : Datum value) (inside : Contains value inner) :
    Datum inner := by
  induction inside with
  | self => exact datum
  | child held _ ih => exact ih (datum.child held)

/-- Equality of data is equality of their forms. -/
theorem separated (datum : Datum value) : Separated value := by
  refine Value.separated ?_ ?_
  · intro origin entries held
    cases datum.part held with
    | map keys values distinct => exact distinct
  · intro car items held
    cases datum.part held

theorem selfAnswering (datum : Datum value) : SelfAnswering value :=
  datum.separated.selfAnswering

/-- In a comparison, data can be replaced by data that are copies of them. -/
theorem equals_eq_equals (datum : Datum left) (datum' : Datum left')
    (first : left'.unnumbered = left.unnumbered) (second : right'.unnumbered = right.unnumbered) :
    left.equals right = left'.equals right' := by
  have replaced : Replacement left right left' right' :=
    ⟨first, second, datum.selfAnswering.shared, datum'.selfAnswering.shared⟩
  exact replaced.equals_eq_equals

/-- A copy of a datum is one. -/
theorem of_copy (datum : Datum value) (same : twin.unnumbered = value.unnumbered) : Datum twin := by
  induction datum generalizing twin with
  | nil => exact eq_of_scalar same trivial ▸ .nil
  | bool => exact eq_of_scalar same trivial ▸ .bool
  | num => exact eq_of_scalar same trivial ▸ .num
  | str => exact eq_of_scalar same trivial ▸ .str
  | keyword atom keyword => exact eq_of_scalar same trivial ▸ .keyword atom keyword
  | empty =>
    cases copyShape same with
    | leaf scalar => cases scalar
    | @list items =>
    cases items with
    | nil => exact .empty
    | cons => cases same
  | vec each ih =>
    cases copyShape same with
    | leaf scalar => cases scalar
    | vec =>
    refine .vec fun item member => ?_
    obtain ⟨item', inside, agree⟩ := exists_mem_of_unnumberedAll (Value.vec.inj same) member
    exact ih item' inside agree
  | @map origin entries keys values distinct ihKeys ihValues =>
    cases copyShape same with
    | leaf scalar => cases scalar
    | @map place _ _ copies agree =>
    have data : ∀ entry ∈ copies, Datum entry.1 ∧ Datum entry.2 := by
      intro entry member
      obtain ⟨entry', inside, key, value⟩ := exists_mem_of_unnumberedEntries agree member
      exact ⟨ihKeys entry' inside key, ihValues entry' inside value⟩
    refine .map (fun entry member => (data entry member).1)
      (fun entry member => (data entry member).2) ?_
    rw [List.pairwise_iff_getElem] at distinct ⊢
    intro first second inside inside' earlier
    have many := unnumberedEntries_length agree
    have held : first < entries.length := by omega
    have held' : second < entries.length := by omega
    have key := getElem_of_unnumberedEntries agree held inside
    have later := getElem_of_unnumberedEntries agree held' inside'
    have datum := keys _ (List.getElem_mem held)
    rw [← datum.equals_eq_equals (data _ (List.getElem_mem inside)).1 key.1 later.1]
    exact distinct first second held held' earlier

end Datum

/-! ### Evaluating data -/

/-- A computation gives a copy of a value and changes nothing but the number for the next map. -/
def Reproduces (computation : EvalM Value) (value : Value) : Prop :=
  ∀ store, ∃ result serial, computation.run.run store =
    (.ok result, { store with serial := serial }) ∧ result.unnumbered = value.unnumbered

theorem reproduces_pure (value : Value) : Reproduces (pure value) value :=
  fun store => ⟨value, store.serial, rfl, rfl⟩

theorem run_mapM_of_reproduces {eval : Value → EvalM Value}
    (each : ∀ item ∈ items, Reproduces (eval item) item) (store : Store) :
    ∃ results serial, (items.mapM eval).run.run store =
        (.ok results, { store with serial := serial }) ∧
      unnumberedAll results = unnumberedAll items := by
  induction items generalizing store with
  | nil => exact ⟨[], store.serial, rfl, rfl⟩
  | cons item items ih =>
    obtain ⟨result, serial, ran, same⟩ := each item List.mem_cons_self store
    obtain ⟨results, serial', ran', sames⟩ :=
      ih (fun other member => each other (List.mem_cons_of_mem _ member))
        { store with serial := serial }
    refine ⟨result :: results, serial', ?_, congrArg₂ List.cons same sames⟩
    rw [List.mapM_cons, EvalM.run_bind, ran]
    dsimp only
    rw [EvalM.run_bind, ran']
    rfl

/-- The copy of an entry whose key is new comes last among the copies of the entries before. -/
theorem unnumberedEntries_insert {done built : Entries} {entry : Value × Value}
    (data : ∀ earlier ∈ done, Datum earlier.1)
    (new : ∀ earlier ∈ done, earlier.1.equals entry.1 = false)
    (same : unnumberedEntries built = unnumberedEntries done)
    (sameKey : key.unnumbered = entry.1.unnumbered)
    (sameValue : value.unnumbered = entry.2.unnumbered) :
    unnumberedEntries (built.insert key value) = unnumberedEntries (done ++ [entry]) := by
  have apart : ∀ made ∈ built, made.1.equals key = false := by
    intro made member
    obtain ⟨earlier, inside, keys, -⟩ := exists_mem_of_unnumberedEntries same member
    have datum := data earlier inside
    rw [← datum.equals_eq_equals (datum.of_copy keys) keys sameKey]
    exact new earlier inside
  rw [Entries.insert_new apart]
  simp only [unnumberedEntries_eq_map] at same ⊢
  rw [List.map_append, List.map_append, same, List.map_singleton, List.map_singleton, sameKey,
    sameValue]

/-- One entry after the other is added to those that were made before. -/
theorem run_entries_of_reproduces {eval : Evaluator} {done entries built : Entries}
    (each : ∀ entry ∈ entries, Reproduces (eval scope entry.1) entry.1 ∧
      Reproduces (eval scope entry.2) entry.2)
    (keys : ∀ entry ∈ done ++ entries, Datum entry.1)
    (distinct : (done ++ entries).Pairwise fun entry later => entry.1.equals later.1 = false)
    (same : unnumberedEntries built = unnumberedEntries done) (store : Store) :
    ∃ results serial, (entries.foldlM (fun (built : Entries) (entry : Value × Value) => do
        let key ← eval scope entry.1
        let value ← eval scope entry.2
        pure (built.insert key value)) built).run.run store =
          (.ok results, { store with serial := serial }) ∧
      unnumberedEntries results = unnumberedEntries (done ++ entries) := by
  induction entries generalizing done built store with
  | nil => exact ⟨built, store.serial, rfl, by rw [same, List.append_nil]⟩
  | cons entry entries ih =>
    obtain ⟨key, serial, ran, sameKey⟩ := (each entry List.mem_cons_self).1 store
    obtain ⟨value, serial', ran', sameValue⟩ :=
      (each entry List.mem_cons_self).2 { store with serial := serial }
    have inserted : unnumberedEntries (built.insert key value) =
        unnumberedEntries (done ++ [entry]) := by
      refine unnumberedEntries_insert (fun earlier member => ?_) (fun earlier member => ?_) same
        sameKey sameValue
      · exact keys earlier (List.mem_append_left _ member)
      · exact (List.pairwise_append.1 distinct).2.2 earlier member entry List.mem_cons_self
    have order : done ++ entry :: entries = done ++ [entry] ++ entries := by simp
    rw [order] at keys distinct ⊢
    obtain ⟨results, serial'', ran'', sames⟩ := ih
      (fun later member => each later (List.mem_cons_of_mem _ member)) keys distinct inserted
      { store with serial := serial' }
    refine ⟨results, serial'', ?_, sames⟩
    rw [List.foldlM_cons, EvalM.run_bind, EvalM.run_bind, ran]
    dsimp only
    rw [EvalM.run_bind, ran']
    exact ran''

/-- At a depth that is no less than its size, which is that of all its copies, a datum gives a copy of
itself. -/
theorem evaluate_datum (datum : Datum value) (scope : Nat)
    (enough : sizeOf value.unnumbered ≤ depth) : Reproduces (evaluate depth scope value) value := by
  induction depth generalizing value with
  | zero => cases value <;> simp [unnumbered] at enough
  | succ depth ih =>
    have parts : ∀ item ∈ value.children, Reproduces (evaluate depth scope item) item := by
      intro item held
      have smaller := sizeOf_children (mem_children_unnumbered held)
      exact ih (datum.child held) (by omega)
    cases datum with
    | nil | bool | num | str | empty => exact reproduces_pure _
    | @keyword name atom keyword =>
      change Reproduces (if (Symbol.mk name).isKeyword then _ else _) _
      rw [if_pos keyword]
      exact reproduces_pure _
    | @vec items each =>
      intro store
      have elements : ∀ item ∈ items, Reproduces (evaluate depth scope item) item := parts
      obtain ⟨results, serial, ran, same⟩ := run_mapM_of_reproduces elements store
      refine ⟨.vec results, serial, ?_, congrArg Value.vec same⟩
      have steps : evaluate (depth + 1) scope (.vec items) =
          items.mapM (evaluate depth scope) >>= fun results => pure (Value.vec results) := rfl
      rw [steps, EvalM.run_bind, ran]
      rfl
    | @map origin entries keys values distinct =>
      intro store
      have each : ∀ entry ∈ entries, Reproduces (evaluate depth scope entry.1) entry.1 ∧
          Reproduces (evaluate depth scope entry.2) entry.2 := fun entry member =>
        ⟨parts _ (mem_children_map origin member).1, parts _ (mem_children_map origin member).2⟩
      obtain ⟨results, serial, ran, same⟩ :=
        @run_entries_of_reproduces scope (evaluate depth) [] entries [] each keys distinct rfl store
      refine ⟨.map (.made serial) results, serial + 1, ?_, congrArg (Value.map (.literal 0)) same⟩
      have steps : evaluate (depth + 1) scope (.map origin entries) =
          evaluateEntries (evaluate depth) scope entries >>= fun built =>
            EvalM.takeSerial >>= fun serial => pure (Value.map (.made serial) built) := rfl
      rw [steps, EvalM.run_bind, evaluateEntries, ran]
      rfl

/-! ### Printing copies -/

mutual

theorem write_unnumbered (place : Place) : (value : Value) →
    value.unnumbered.write place = value.write place
  | .nil | .bool _ | .num _ | .str _ | .sym _ | .prim _ | .closure _ _ _ _ => rfl
  | .pair car cdr => by
    cases place <;> simp only [unnumbered, write, write_unnumbered _ car, write_unnumbered _ cdr]
  | .list items => by
    cases place <;> simp only [unnumbered, write, writeAll_unnumbered items]
  | .vec items => by simp only [unnumbered, write, writeAll_unnumbered items]
  | .map origin entries => by simp only [unnumbered, write, writeEntries_unnumbered entries]

theorem writeAll_unnumbered : (items : List Value) →
    writeAll (unnumberedAll items) = writeAll items
  | [] => rfl
  | item :: items => by
    simp only [unnumberedAll, writeAll, write_unnumbered _ item, writeAll_unnumbered items]

theorem writeEntries_unnumbered : (entries : List (Value × Value)) →
    writeEntries (unnumberedEntries entries) = writeEntries entries
  | [] => rfl
  | (key, value) :: entries => by
    simp only [unnumberedEntries, writeEntries, write_unnumbered _ key, write_unnumbered _ value,
      writeEntries_unnumbered entries]

end

/-- Copies have the same printed form. -/
theorem print_eq_of_copy {copy value : Value} (same : copy.unnumbered = value.unnumbered) :
    copy.print = value.print := by
  rw [Value.print, ← write_unnumbered, same, write_unnumbered]
  rfl

/-- At any depth that is great enough for it, the printed form of a datum gets itself as the answer of
every session. Nothing is written or bound, and of the store only the number for the next map
changes. -/
theorem data_stand_for_themselves (value : Value) (datum : Datum value) :
    ∃ enough, ∀ depth, enough ≤ depth → ∀ session : Session,
      (session.rep depth value.print).2 = .printed value.print ∧
        ∃ serial,
          (session.rep depth value.print).1.store = { session.store with serial := serial } := by
  refine ⟨sizeOf value.unnumbered, fun depth enough session => ?_⟩
  obtain ⟨form, read, same⟩ := datum.readable.read session.literals
  rw [← same] at enough
  have evaluates := evaluate_datum (datum.of_copy same) Store.globalScope enough
  obtain ⟨result, serial, ran, alike⟩ := evaluates session.store
  have ended : (evaluate depth Store.globalScope form.value).outcome session.store = .ok result :=
    congrArg Prod.fst ran
  rw [Session.rep_of_read read, ended]
  refine ⟨?_, serial, congrArg Prod.snd ran⟩
  rw [Reply.ofEnd, print_eq_of_copy (alike.trans same)]

/-- A map with another map among its keys, and a text that needs an escape. -/
theorem data_stand_for_themselves_map :
    Datum (.map (.made 0) [(.sym ⟨":b"⟩, .list []),
        (.map (.made 1) [(.str "\n", .num (-1))], .vec [.bool true, .nil])]) ∧
      ∃ enough, ∀ depth, enough ≤ depth → ∀ session : Session,
        (session.rep depth "\x7b:b () \x7b\"\\n\" -1\x7d [true nil]\x7d").2 =
          .printed "\x7b:b () \x7b\"\\n\" -1\x7d [true nil]\x7d" := by
  have inner : Datum (.map (.made 1) [(.str "\n", .num (-1))]) :=
    .map (List.forall_mem_singleton.2 .str) (List.forall_mem_singleton.2 .num)
      (List.pairwise_singleton _ _)
  have items : ∀ item ∈ [Value.bool true, .nil], Datum item :=
    List.forall_mem_cons.2 ⟨.bool, List.forall_mem_singleton.2 .nil⟩
  have keyword : Datum (.sym ⟨":b"⟩) := .keyword (@IsAtom.of_all ':' "b".toList rfl rfl) rfl
  have datum : Datum (.map (.made 0) [(.sym ⟨":b"⟩, .list []),
      (.map (.made 1) [(.str "\n", .num (-1))], .vec [.bool true, .nil])]) := by
    refine .map (List.forall_mem_cons.2 ⟨keyword, List.forall_mem_singleton.2 inner⟩)
      (List.forall_mem_cons.2 ⟨.empty, List.forall_mem_singleton.2 (.vec items)⟩) ?_
    exact List.pairwise_pair.2 (by cbv)
  obtain ⟨enough, answers⟩ := data_stand_for_themselves _ datum
  exact ⟨datum, enough, fun depth many session => (answers depth many session).1⟩

end MiniLisp
