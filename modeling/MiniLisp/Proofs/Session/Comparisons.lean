import MiniLisp.Proofs.Reader.Lines
import MiniLisp.Proofs.Session.Lines

/-! One text read twice. The two values are copies of each other: they differ only in the numbers of
their map literals, and these have no number in common. So it makes no difference which of the two is
compared with the other. They are equal if every map literal in the text, at any depth, gives under each
of its keys what the key is written with. A literal that repeats a key with another value is not equal
to its copy. -/

namespace MiniLisp

open Value

/-- The text of a comparison of two reads of one text, which stands on a line of its own each time. -/
def comparisonText (text : String) : String :=
  "(= (quote\n" ++ text ++ "\n) (quote\n" ++ text ++ "\n))"

/-! ### Reading -/

/-- The comparison of two reads of a text reads as the call that compares its two values. -/
theorem read_comparisonText (read : MiniLisp.read literals text = .ok form) :
    ∃ form', MiniLisp.read form.literals text = .ok form' ∧
      form'.value.unnumbered = form.value.unnumbered ∧
      MiniLisp.read literals (comparisonText text) =
        .ok ⟨.list [.sym ⟨"="⟩, .list [.sym ⟨"quote"⟩, form.value],
          .list [.sym ⟨"quote"⟩, form'.value]], form'.literals⟩ := by
  obtain ⟨form', read', same⟩ := exists_read_renumber form.literals read
  refine ⟨form', read', same, ?_⟩
  obtain ⟨tokens, cut, derived⟩ := exists_tokens_of_read read
  obtain ⟨tokens', cut', derived'⟩ := exists_tokens_of_read read'
  have opening : tokenize "(= (quote" = .ok [⟨.opening .round, ⟨0, 1⟩⟩, ⟨.atom "=", ⟨1, 2⟩⟩,
      ⟨.opening .round, ⟨3, 4⟩⟩, ⟨.atom "quote", ⟨4, 9⟩⟩] := by cbv
  have between : tokenize ") (quote" = .ok [⟨.closing .round, ⟨0, 1⟩⟩,
      ⟨.opening .round, ⟨2, 3⟩⟩, ⟨.atom "quote", ⟨3, 8⟩⟩] := by cbv
  have closing : tokenize "))" = .ok [⟨.closing .round, ⟨0, 1⟩⟩, ⟨.closing .round, ⟨1, 2⟩⟩] := by
    cbv
  have lines := CutLines.cons opening (.cons cut (.cons between (.cons cut' .nil)))
  refine read_lines lines closing ?_ ?_
  · simp [comparisonText, charsOfLines]
  · have equal : Form literals [.atom "="] (.sym ⟨"="⟩) literals := @Form.atom "=" ⟨1, 2⟩ _ _ rfl
    have quote : ∀ first, Form first [.atom "quote"] (.sym ⟨"quote"⟩) first := fun _ =>
      @Form.atom "quote" ⟨4, 9⟩ _ _ rfl
    have quoted := Form.list (.cons (quote literals) (.cons derived .nil))
    have quoted' := Form.list (.cons (quote form.literals) (.cons derived' .nil))
    simpa [kindsOf] using Form.list (.cons equal (.cons quoted (.cons quoted' .nil)))

/-- Values whose maps have different numbers have no map in common. -/
theorem NumberedWithin.sharedAnswered (within : NumberedWithin first second left)
    (within' : NumberedWithin second third right) : SharedAnswered left right := by
  intro origin entries held held'
  obtain ⟨number, rfl, -, less⟩ := within origin entries held
  obtain ⟨number', same, least, -⟩ := within' _ entries held'
  obtain rfl := Origin.literal.inj same
  omega

/-- Of two reads one after the other, it makes no difference whose value is compared with the other's. -/
theorem equals_comm_of_reads (read : MiniLisp.read literals text = .ok form)
    (read' : MiniLisp.read form.literals text = .ok form')
    (same : form'.value.unnumbered = form.value.unnumbered) :
    form.value.equals form'.value = form'.value.equals form.value := by
  have shared := (numberedWithin_of_read read).sharedAnswered (numberedWithin_of_read read')
  have replaced : Replacement form.value form'.value form'.value form.value :=
    ⟨same, same.symm, shared, shared.symm⟩
  exact replaced.equals_eq_equals

/-! ### Evaluating -/

/-- If the name of the comparison is bound to the primitive, the call compares the two quoted values. -/
theorem outcome_comparison (bound : store.scopes.lookup scope ⟨"="⟩ = some (.prim .equal))
    (depth : Nat) (left right : Value) :
    (evaluate (depth + 2) scope (.list [.sym ⟨"="⟩, .list [.sym ⟨"quote"⟩, left],
      .list [.sym ⟨"quote"⟩, right]])).outcome store = .ok (.bool (left.equals right)) := by
  have head : (EvalM.lookup scope ⟨"="⟩).outcome store = .ok (.prim .equal) := by
    rw [EvalM.outcome_lookup, bound]
  have called := (EvalM.outcome_bind_of_ok (fun function => do
    let arguments ← [.list [.sym ⟨"quote"⟩, left], .list [.sym ⟨"quote"⟩, right]].mapM
      (evaluate (depth + 1) scope)
    apply (evaluate (depth + 1)) function arguments) head).1
  rw [EvalM.after_lookup] at called
  rw [← Bool.and_true (left.equals right)]
  -- Once the head is looked up, neither the quoted values nor the store have a say in what is done.
  exact called.trans rfl

/-- If every map literal of a text that reads answers itself, then the values of any two reads of the
text are equal, whichever is compared with the other. For all texts, it makes no difference which of
two reads one after the other is compared with which; and a session in which the name of the comparison
is bound to the primitive answers what this comparison gives. -/
theorem separate_reads_are_equal (text : String) :
    (∀ literals literals' form, MiniLisp.read literals text = .ok form →
      SelfAnswering form.value → ∃ form', MiniLisp.read literals' text = .ok form' ∧
        form.value.equals form'.value = true ∧ form'.value.equals form.value = true) ∧
    ∀ (session : Session) (depth : Nat) (form : Numbered Value),
      MiniLisp.read session.literals text = .ok form →
        ∃ form', MiniLisp.read form.literals text = .ok form' ∧
          form.value.equals form'.value = form'.value.equals form.value ∧
          (session.store.scopes.lookup Store.globalScope ⟨"="⟩ = some (.prim .equal) →
            (session.rep (depth + 2) (comparisonText text)).2 =
                .printed (Value.bool (form.value.equals form'.value)).print ∧
              (SelfAnswering form.value →
                (session.rep (depth + 2) (comparisonText text)).2 = .printed "true")) := by
  refine ⟨?_, ?_⟩
  · intro literals literals' form read answering
    obtain ⟨form', read', same⟩ := exists_read_renumber literals' read
    exact ⟨form', read', answering.equals_copy same⟩
  · intro session depth form read
    obtain ⟨form', read', same, whole⟩ := read_comparisonText read
    refine ⟨form', read', equals_comm_of_reads read read' same, fun bound => ?_⟩
    have answer : (session.rep (depth + 2) (comparisonText text)).2 =
        .printed (Value.bool (form.value.equals form'.value)).print := by
      rw [Session.rep_of_read whole, outcome_comparison bound]
      rfl
    refine ⟨answer, fun answering => ?_⟩
    rw [answer, (answering.equals_copy same).1]
    rfl

/-- A literal that repeats a key with an equal value, inside a vector. -/
theorem separate_reads_are_equal_repeated_key :
    ∃ form form', MiniLisp.read 0 "[\x7ba [1] a (1)\x7d]" = .ok form ∧
      MiniLisp.read 7 "[\x7ba [1] a (1)\x7d]" = .ok form' ∧ form.value.equals form'.value = true ∧
        form'.value.equals form.value = true ∧
          (Session.initial.rep 2 (comparisonText "[\x7ba [1] a (1)\x7d]")).2 = .printed "true" := by
  have read : MiniLisp.read 0 "[\x7ba [1] a (1)\x7d]" = .ok ⟨.vec [.map (.literal 0)
      [(.sym ⟨"a"⟩, .vec [.num 1]), (.sym ⟨"a"⟩, .list [.num 1])]], 1⟩ := by cbv
  have answering : SelfAnswering (.vec [.map (.literal 0)
      [(.sym ⟨"a"⟩, .vec [.num 1]), (.sym ⟨"a"⟩, .list [.num 1])]]) := by
    have found : Entries.get? [(.sym ⟨"a"⟩, .vec [.num 1]), (.sym ⟨"a"⟩, .list [.num 1])]
        (.sym ⟨"a"⟩) = some (.list [.num 1]) := by cbv
    have equal : (list [num 1]).equals (vec [num 1]) = true := by cbv
    intro origin entries held
    obtain ⟨rfl, rfl⟩ : origin = .literal 0 ∧
        entries = [(.sym ⟨"a"⟩, .vec [.num 1]), (.sym ⟨"a"⟩, .list [.num 1])] := by
      simpa [contains_vec, contains_map, contains_sym, contains_num, contains_list] using held
    exact List.forall_mem_cons.2 ⟨⟨_, found, equal⟩,
      List.forall_mem_singleton.2 ⟨_, found, equals_self _⟩⟩
  obtain ⟨reads, compares⟩ := separate_reads_are_equal "[\x7ba [1] a (1)\x7d]"
  obtain ⟨form', read', equal⟩ := reads 0 7 _ read answering
  obtain ⟨_, -, -, compared⟩ := compares Session.initial 0 _ read
  exact ⟨_, form', read, read', equal.1, equal.2, (compared (by cbv)).2 answering⟩

/-- Two reads of a literal that repeats a key with another value are not equal. -/
theorem separate_reads_not_equal :
    MiniLisp.read 0 "\x7ba 1 a 2\x7d" = .ok ⟨.map (.literal 0)
        [(.sym ⟨"a"⟩, .num 1), (.sym ⟨"a"⟩, .num 2)], 1⟩ ∧
      MiniLisp.read 1 "\x7ba 1 a 2\x7d" = .ok ⟨.map (.literal 1)
        [(.sym ⟨"a"⟩, .num 1), (.sym ⟨"a"⟩, .num 2)], 2⟩ ∧
      (map (.literal 0) [(.sym ⟨"a"⟩, .num 1), (.sym ⟨"a"⟩, .num 2)]).equals
        (map (.literal 1) [(.sym ⟨"a"⟩, .num 1), (.sym ⟨"a"⟩, .num 2)]) = false ∧
      Session.initial.store.scopes.lookup Store.globalScope ⟨"="⟩ = some (.prim .equal) ∧
      (Session.initial.rep 2 (comparisonText "\x7ba 1 a 2\x7d")).2 = .printed "false" :=
  ⟨by cbv, by cbv, by cbv, by cbv, by cbv⟩

end MiniLisp
