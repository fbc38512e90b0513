import MiniLisp.Proofs.Eval.Depth
import MiniLisp.Proofs.Reader.Lines
import MiniLisp.Proofs.Session.Lines

/-! Texts as one sequence. Texts that read can be put on lines of their own into the brackets of one
sequence. The sequence reads as the forms of the texts, and a session that gets it does and answers
what it does and answers when it gets the texts one after the other up to the first that fails. -/

namespace MiniLisp

/-- The text of a sequence of texts, each on a line of its own. -/
def sequenceText (texts : List String) : String :=
  "(do\n" ++ String.join (texts.map (· ++ "\n")) ++ ")"

/-- The forms of texts that are read one after the other. -/
def readInTurn (literals : Nat) : List String → Except ReadError (Numbered (List Value))
  | [] => .ok ⟨[], literals⟩
  | text :: texts =>
    match MiniLisp.read literals text with
    | .error error => .error error
    | .ok form =>
      (fun others => ⟨form.value :: others.value, others.literals⟩) <$>
        readInTurn form.literals texts

/-- The session after texts that are given to it one after the other, up to the first that has no
value, and its answer to the last of them. -/
def Session.runToFailure (depth : Nat) (session : Session) : List String → Session × Reply
  | [] => (session, .nothing)
  | [text] => session.rep depth text
  | text :: following :: texts =>
    match session.rep depth text with
    | (next, .printed _) => next.runToFailure depth (following :: texts)
    | ended => ended

/-! ### Reading -/

theorem readInTurn_cons (inTurn : readInTurn literals (text :: texts) = .ok forms) :
    ∃ form others, MiniLisp.read literals text = .ok form ∧
      readInTurn form.literals texts = .ok others ∧
        forms = ⟨form.value :: others.value, others.literals⟩ := by
  rw [readInTurn] at inTurn
  split at inTurn
  · cases inTurn
  · next form read =>
    obtain ⟨others, inTurn, same⟩ := exists_of_map_eq_ok inTurn
    exact ⟨form, others, read, inTurn, same.symm⟩

theorem exists_readInTurn (each : ∀ text ∈ texts, holdsForm text = true) (literals : Nat) :
    ∃ forms, readInTurn literals texts = .ok forms := by
  induction texts generalizing literals with
  | nil => exact ⟨_, rfl⟩
  | cons text texts ih =>
    have holds := each text List.mem_cons_self
    obtain ⟨form, read⟩ : ∃ form, MiniLisp.read 0 text = .ok form := by
      rw [holdsForm] at holds
      cases read : MiniLisp.read 0 text with
      | error error => rw [read] at holds; cases holds
      | ok form => exact ⟨form, rfl⟩
    obtain ⟨form, read, -⟩ := exists_read_renumber literals read
    obtain ⟨others, inTurn⟩ := ih (fun text member => each text (List.mem_cons_of_mem _ member))
      form.literals
    refine ⟨⟨form.value :: others.value, others.literals⟩, ?_⟩
    rw [readInTurn, read]
    simp only [inTurn]
    rfl

/-- Texts that read one after the other are lines whose tokens together are the forms of the texts. -/
theorem forms_of_readInTurn (inTurn : readInTurn literals texts = .ok forms) :
    ∃ lines : List (String × List TokenKind), lines.map Prod.fst = texts ∧ CutLines lines ∧
      Forms literals (lines.flatMap Prod.snd) forms.value forms.literals := by
  induction texts generalizing literals forms with
  | nil =>
    cases inTurn
    exact ⟨[], rfl, .nil, .nil⟩
  | cons text texts ih =>
    obtain ⟨form, others, read, othersInTurn, rfl⟩ := readInTurn_cons inTurn
    obtain ⟨tokens, cut, derived⟩ := exists_tokens_of_read read
    obtain ⟨lines, rfl, each, derived'⟩ := ih othersInTurn
    exact ⟨(text, kindsOf tokens) :: lines, rfl, .cons cut each, .cons derived derived'⟩

/-- A sequence of texts reads as the sequence of their forms. -/
theorem read_sequenceText (inTurn : readInTurn literals texts = .ok forms) :
    MiniLisp.read literals (sequenceText texts) =
      .ok ⟨.list (.sym ⟨SpecialForm.sequence.name⟩ :: forms.value), forms.literals⟩ := by
  have opening : tokenize "(do" = .ok [⟨.opening .round, ⟨0, 1⟩⟩, ⟨.atom "do", ⟨1, 3⟩⟩] := by cbv
  have closing : tokenize ")" = .ok [⟨.closing .round, ⟨0, 1⟩⟩] := by cbv
  obtain ⟨lines, rfl, cut, derived⟩ := forms_of_readInTurn inTurn
  refine read_lines (.cons opening cut) closing ?_ ?_
  · simp [sequenceText, charsOfLines, List.flatMap_map]
  · have name : Form literals [.atom "do"] (.sym ⟨SpecialForm.sequence.name⟩) literals :=
      @Form.atom "do" ⟨1, 3⟩ _ _ rfl
    simpa [kindsOf] using Form.list (.cons name derived)

/-! ### Running -/

/-- A sequence is evaluated form by form. -/
theorem evaluate_sequence (depth scope : Nat) (forms : List Value) :
    evaluate (depth + 1) scope (.list (.sym ⟨SpecialForm.sequence.name⟩ :: forms)) =
      EvalM.record (.specialForm .sequence) >>= fun _ =>
        forms.foldlM (fun _ form => evaluate depth scope form) .nil := rfl

namespace Session

section
variable {session : Session} {form : Numbered Value}
  (read : MiniLisp.read session.literals text = .ok form)
include read

theorem runToFailure_of_ok (ended : (MiniLisp.evaluate depth Store.globalScope form.value).outcome
      session.store = .ok value) (following : String) (texts : List String) :
    session.runToFailure depth (text :: following :: texts) =
      runToFailure depth ⟨(MiniLisp.evaluate depth Store.globalScope form.value).after session.store,
        form.literals⟩ (following :: texts) := by
  rw [runToFailure, rep_of_read read, ended]
  rfl

theorem runToFailure_of_error (ended : (MiniLisp.evaluate depth Store.globalScope form.value).outcome
      session.store = .error halt) (following : String) (texts : List String) :
    session.runToFailure depth (text :: following :: texts) =
      (⟨(MiniLisp.evaluate depth Store.globalScope form.value).after session.store, form.literals⟩,
        .ofEnd (.error halt)) := by
  rw [runToFailure, rep_of_read read, ended]
  cases halt <;> rfl

end

/-- The forms of some texts, evaluated one after the other from a state that differs in its log at
most, end like the run of the texts up to the first that fails. -/
theorem forms_runToFailure {session : Session} {store : Store} (some : texts ≠ [])
    (inTurn : readInTurn session.literals texts = .ok forms)
    (alike : session.store.unlogged = store.unlogged) (depth : Nat) (start : Value) :
    (session.runToFailure depth texts).2 = .ofEnd (EvalM.outcome (forms.value.foldlM
        (fun _ form => MiniLisp.evaluate depth Store.globalScope form) start) store) ∧
      (session.runToFailure depth texts).1.store.unlogged = (EvalM.after (forms.value.foldlM
        (fun _ form => MiniLisp.evaluate depth Store.globalScope form) start) store).unlogged := by
  induction texts generalizing session forms store start with
  | nil => exact (some rfl).elim
  | cons text texts ih =>
    obtain ⟨form, others, read, othersInTurn, rfl⟩ := readInTurn_cons inTurn
    obtain ⟨same, leaves⟩ := evaluate_unlogged alike depth Store.globalScope form.value
    simp only [List.foldlM_cons]
    cases texts with
    | nil =>
      cases othersInTurn
      simp only [List.foldlM_nil, bind_pure]
      rw [runToFailure, rep_of_read read, same]
      exact ⟨rfl, leaves⟩
    | cons following texts =>
      cases ended : (MiniLisp.evaluate depth Store.globalScope form.value).outcome session.store with
      | ok value =>
        rw [runToFailure_of_ok read ended]
        obtain ⟨ends, goesOn⟩ := EvalM.outcome_bind_of_ok (fun value => others.value.foldlM
          (fun _ form => MiniLisp.evaluate depth Store.globalScope form) value) (same.trans ended)
        rw [ends, goesOn]
        exact ih (List.cons_ne_nil following texts) othersInTurn leaves value
      | error halt =>
        rw [runToFailure_of_error read ended]
        obtain ⟨ends, stops⟩ := EvalM.outcome_bind_of_error (fun value => others.value.foldlM
          (fun _ form => MiniLisp.evaluate depth Store.globalScope form) value) (same.trans ended)
        rw [ends, stops]
        exact ⟨rfl, leaves⟩

/-! ### A greater depth -/

theorem rep_deeper {session : Session} (ends : (session.rep depth line).2 ≠ .exhausted)
    (more : Nat) : session.rep (depth + more) line = session.rep depth line := by
  cases read : MiniLisp.read session.literals line with
  | error error => simp only [rep, evaluate, read]
  | ok form =>
    rw [rep_of_read read] at ends
    have ended : (MiniLisp.evaluate depth Store.globalScope form.value).outcome session.store ≠
        .error .exhausted := fun same => ends (congrArg Reply.ofEnd same)
    obtain ⟨same, leaves⟩ := evaluate_deeper ended more
    rw [rep_of_read read, rep_of_read read, same, leaves]

theorem runToFailure_deeper {session : Session}
    (ends : (session.runToFailure depth texts).2 ≠ .exhausted) (more : Nat) :
    session.runToFailure (depth + more) texts = session.runToFailure depth texts := by
  fun_induction runToFailure depth session texts with
  | case1 => rfl
  | case2 session text => exact rep_deeper ends more
  | case3 session text following texts next shown printed ih =>
    have same := rep_deeper (by rw [printed]; simp) more
    rw [runToFailure, same, printed]
    exact ih ends
  | case4 session text following texts other =>
    rw [runToFailure, rep_deeper ends more]
    split
    · next next shown printed => exact (other next shown printed).elim
    · rfl

end Session

/-- What a session makes of a sequence, at one depth more than the texts need. -/
theorem rep_sequenceText {session : Session} (some : texts ≠ [])
    (inTurn : readInTurn session.literals texts = .ok forms) (depth : Nat) :
    (session.rep (depth + 1) (sequenceText texts)).2 = (session.runToFailure depth texts).2 ∧
      (session.rep (depth + 1) (sequenceText texts)).1.store.unlogged =
        (session.runToFailure depth texts).1.store.unlogged := by
  have noted : session.store.unlogged =
      (session.store.record (.specialForm .sequence)).unlogged := rfl
  obtain ⟨reply, leaves⟩ := Session.forms_runToFailure some inTurn noted depth .nil
  rw [Session.rep_of_read (read_sequenceText inTurn), evaluate_sequence, reply, leaves]
  exact ⟨rfl, rfl⟩

/-- Texts that each read make up a sequence that reads as their forms, read one after the other. A
session that gets the sequence answers what it answers at the end when it gets the texts one after the
other up to the first that fails, and both leave the same scopes, output and numbers. Within the
allowed depth the sequence takes one level more than its texts; if neither is used up, the depths do
not matter. -/
theorem sequence_runs_in_turn (texts : List String) (some : texts ≠ [])
    (each : ∀ text ∈ texts, holdsForm text = true) :
    (∀ literals, ∃ forms, readInTurn literals texts = .ok forms ∧
        MiniLisp.read literals (sequenceText texts) =
          .ok ⟨.list (.sym ⟨"do"⟩ :: forms.value), forms.literals⟩) ∧
      ∀ session : Session,
        (∀ depth,
          (session.rep (depth + 1) (sequenceText texts)).2 =
              (session.runToFailure depth texts).2 ∧
            (session.rep (depth + 1) (sequenceText texts)).1.store.unlogged =
              (session.runToFailure depth texts).1.store.unlogged) ∧
        ∀ depth depth',
          (session.rep depth (sequenceText texts)).2 ≠ .exhausted →
            (session.runToFailure depth' texts).2 ≠ .exhausted →
              (session.rep depth (sequenceText texts)).2 =
                  (session.runToFailure depth' texts).2 ∧
                (session.rep depth (sequenceText texts)).1.store.unlogged =
                  (session.runToFailure depth' texts).1.store.unlogged := by
  refine ⟨fun literals => ?_, fun session => ?_⟩
  · obtain ⟨forms, inTurn⟩ := exists_readInTurn each literals
    exact ⟨forms, inTurn, read_sequenceText inTurn⟩
  obtain ⟨forms, inTurn⟩ := exists_readInTurn each session.literals
  refine ⟨fun depth => rep_sequenceText some inTurn depth, ?_⟩
  intro depth depth' ends ends'
  have same := rep_sequenceText some inTurn (depth + depth')
  have deeper := Session.rep_deeper ends (depth' + 1)
  have deeper' := Session.runToFailure_deeper ends' depth
  rw [← Nat.add_assoc] at deeper
  rw [Nat.add_comm] at deeper'
  rwa [deeper, deeper'] at same

/-- The comment ends with its line, and the text after the failure has no effect. -/
theorem sequence_runs_in_turn_failed :
    (∀ text ∈ ["(def! a 1) ; one", "b", "(def! a 2)"], holdsForm text = true) ∧
      (Session.initial.rep 3 (sequenceText ["(def! a 1) ; one", "b", "(def! a 2)"])).2 =
        .failed (.unbound ⟨"b"⟩) ∧
      (Session.initial.rep 3 (sequenceText ["(def! a 1) ; one", "b", "(def! a 2)"])).1.store.scopes =
        #[Scope.global.bind ⟨"a"⟩ (.num 1)] := by
  have first : holdsForm "(def! a 1) ; one" = true := by cbv
  have second : holdsForm "b" = true := by cbv
  have third : holdsForm "(def! a 2)" = true := by cbv
  have each : ∀ text ∈ ["(def! a 1) ; one", "b", "(def! a 2)"], holdsForm text = true := by
    simp [first, second, third]
  obtain ⟨-, inTurn⟩ := sequence_runs_in_turn _ (List.cons_ne_nil _ _) each
  obtain ⟨reply, leaves⟩ := (inTurn Session.initial).1 2
  refine ⟨each, ?_, ?_⟩
  · rw [reply]
    cbv
  · refine (congrArg Store.scopes leaves).trans ?_
    cbv

end MiniLisp
