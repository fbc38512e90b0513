import MiniLisp.Proofs.Reader.Grammar

/-! The reader follows the grammar. A form of the grammar is read in one go, whatever stands around
it, and leaves just the tokens after it; and whatever the reader accepts is a form of the grammar.
The reader keeps a stack of what waits for forms, so the second half is carried by an invariant that
gives each stack the tokens taken so far. -/

namespace MiniLisp

/-- What the reader does with its progress when more tokens may follow. -/
def proceed (stop literals : Nat) (tokens : List Token) : Progress → Except ReadError Reading
  | .done value => .ok ⟨value, tokens, literals⟩
  | .pending frames => resume stop literals frames tokens

/-- A stack on which any form may be put, and not only a map literal. -/
def Welcomes (frames : List Frame) : Prop := ∀ outer, frames ≠ .caret :: outer

theorem resume_cons (taken : readToken stop literals frames token = .ok ⟨progress, literals'⟩) :
    resume stop literals frames (token :: tokens) = proceed stop literals' tokens progress := by
  rw [resume, taken]
  cases progress <;> rfl

section
variable {stop literals : Nat} {frames : List Frame} {token : Token}

/-! ### What the reader does with a token -/

theorem readToken_opening (welcome : Welcomes frames ∨ bracket = .curly)
    (kind : token.kind = .opening bracket) :
    readToken stop literals frames token =
      .ok ⟨.pending (.bracket bracket token.span.start [] :: frames), literals⟩ := by
  unfold readToken
  rw [kind]
  split <;> simp_all [Welcomes]

theorem readToken_closing (kind : token.kind = .closing bracket)
    (given : bracketValue literals bracket start stop items.reverse = .ok closed) :
    readToken stop literals (.bracket bracket start items :: frames) token =
      .ok ⟨settle closed.value frames, closed.literals⟩ := by
  unfold readToken
  rw [kind]
  simp only [↓reduceIte, given]
  rfl

theorem readToken_shorthand (welcome : Welcomes frames) (kind : token.kind = .shorthand mark) :
    readToken stop literals frames token = .ok ⟨.pending (.shorthand mark :: frames), literals⟩ := by
  unfold readToken
  rw [kind]
  split <;> simp_all [Welcomes]

theorem readToken_caret (welcome : Welcomes frames) (kind : token.kind = .caret) :
    readToken stop literals frames token = .ok ⟨.pending (.caret :: frames), literals⟩ := by
  unfold readToken
  rw [kind]
  split <;> simp_all [Welcomes]

theorem readToken_str (welcome : Welcomes frames) (kind : token.kind = .str text) :
    readToken stop literals frames token = .ok ⟨settle (.str text) frames, literals⟩ := by
  unfold readToken
  rw [kind]
  split <;> simp_all [Welcomes]

theorem readToken_atom (welcome : Welcomes frames) (kind : token.kind = .atom text)
    (accepted : atomValue text token.span = .ok value) :
    readToken stop literals frames token = .ok ⟨settle value frames, literals⟩ := by
  unfold readToken
  rw [kind]
  split
  case h_9 same =>
    cases same
    rw [accepted]
    rfl
  all_goals simp_all [Welcomes]

end

/-! ### Forms of the grammar are read -/

private theorem kinds_eq_bracketed (same : kindsOf tokens = opened :: (kinds ++ [closed])) :
    ∃ first inside last, tokens = first :: (inside ++ [last]) ∧ first.kind = opened ∧
      kindsOf inside = kinds ∧ last.kind = closed := by
  obtain ⟨first, others, rfl, opens, same⟩ := List.map_eq_cons_iff.1 same
  obtain ⟨inside, final, rfl, between, same⟩ := List.map_eq_append_iff.1 same
  obtain ⟨last, rfl, closes⟩ := List.map_eq_singleton_iff.1 same
  exact ⟨first, inside, last, rfl, opens, between, closes⟩

private theorem resume_bracketed {tokens rest : List Token} {values : List Value}
    (welcome : Welcomes frames ∨ bracket = .curly) (opens : opened.kind = .opening bracket)
    (closes : last.kind = .closing bracket)
    (inside : ∀ start rest, resume stop first (.bracket bracket start [] :: frames) (tokens ++ rest) =
      resume stop second (.bracket bracket start (values.reverse ++ []) :: frames) rest)
    (given : ∀ start, bracketValue second bracket start stop values = .ok ⟨value, third⟩) :
    resume stop first frames (opened :: (tokens ++ [last]) ++ rest) =
      proceed stop third rest (settle value frames) := by
  have brackets : opened :: (tokens ++ [last]) ++ rest = opened :: (tokens ++ last :: rest) := by simp
  rw [brackets, resume_cons (readToken_opening welcome opens)]
  refine (inside opened.span.start (last :: rest)).trans ?_
  have reversed := given opened.span.start
  rw [← List.reverse_reverse values, ← List.append_nil values.reverse] at reversed
  exact resume_cons (readToken_closing closes reversed)

mutual

/-- A form is read as it stands, and what waits for it goes on with its value. -/
theorem Form.resume (tokens rest : List Token) (frames : List Frame) (welcome : Welcomes frames) :
    Form first kinds value second → kindsOf tokens = kinds →
      resume stop first frames (tokens ++ rest) = proceed stop second rest (settle value frames)
  | .atom accepted, same => by
    obtain ⟨token, rfl, kind⟩ := List.map_eq_singleton_iff.1 same
    exact resume_cons (readToken_atom welcome kind
      (atomValue_eq_ok_iff.2 (atomValue_eq_ok_iff.1 accepted)))
  | .str, same => by
    obtain ⟨token, rfl, kind⟩ := List.map_eq_singleton_iff.1 same
    exact resume_cons (readToken_str welcome kind)
  | .list inside, same => by
    obtain ⟨opened, tokens, last, rfl, opens, same, closes⟩ := kinds_eq_bracketed same
    exact resume_bracketed (.inl welcome) opens closes
      (fun _ rest => inside.resume tokens rest frames [] same) fun _ => rfl
  | .vec inside, same => by
    obtain ⟨opened, tokens, last, rfl, opens, same, closes⟩ := kinds_eq_bracketed same
    exact resume_bracketed (.inl welcome) opens closes
      (fun _ rest => inside.resume tokens rest frames [] same) fun _ => rfl
  | .map literal, same => literal.resume tokens rest frames same
  | .shorthand wrapped, same => by
    obtain ⟨token, inside, rfl, kind, same⟩ := List.map_eq_cons_iff.1 same
    rw [List.cons_append, resume_cons (readToken_shorthand welcome kind)]
    exact wrapped.resume inside rest (.shorthand _ :: frames) (by simp [Welcomes]) same
  | .metadata literal carrier, same => by
    obtain ⟨token, others, rfl, kind, same⟩ := List.map_eq_cons_iff.1 same
    obtain ⟨map, inside, rfl, between, same⟩ := List.map_eq_append_iff.1 same
    rw [List.cons_append, resume_cons (readToken_caret welcome kind), List.append_assoc]
    refine (literal.resume map (inside ++ rest) (.caret :: frames) between).trans ?_
    exact carrier.resume inside rest (.metadata _ :: frames) (by simp [Welcomes]) same

theorem MapLiteral.resume (tokens rest : List Token) (frames : List Frame) :
    MapLiteral first kinds value second → kindsOf tokens = kinds →
      resume stop first frames (tokens ++ rest) = proceed stop second rest (settle value frames)
  | .braced inside, same => by
    obtain ⟨opened, tokens, last, rfl, opens, same, closes⟩ := kinds_eq_bracketed same
    refine resume_bracketed (.inr rfl) opens closes
      (fun _ rest => inside.resume tokens rest frames [] same) fun _ => ?_
    simp only [bracketValue, Entries.pairUp?_flat]

/-- Forms inside a bracket are read one after the other and kept by the bracket, the last first. -/
theorem Forms.resume (tokens rest : List Token) (frames : List Frame) (items : List Value) :
    Forms first kinds values second → kindsOf tokens = kinds →
      MiniLisp.resume stop first (.bracket bracket start items :: frames) (tokens ++ rest) =
        MiniLisp.resume stop second (.bracket bracket start (values.reverse ++ items) :: frames) rest
  | .nil, same => by
    rw [List.map_eq_nil_iff.1 same]
    rfl
  | .cons head tail, same => by
    obtain ⟨leading, others, rfl, between, same⟩ := List.map_eq_append_iff.1 same
    rw [List.append_assoc]
    refine (head.resume leading (others ++ rest) (.bracket _ _ _ :: frames) (by simp [Welcomes])
      between).trans ?_
    refine (tail.resume others rest frames _ same).trans ?_
    simp

end

/-! ### What is read is a form of the grammar -/

/-- What may be put on a stack: a map literal after a caret, and any form otherwise. -/
def Fits : List Frame → Nat → List TokenKind → Value → Nat → Prop
  | .caret :: _ => MapLiteral
  | _ => Form

theorem Fits.of_form (welcome : Welcomes frames) (form : Form first kinds value second) :
    Fits frames first kinds value second := by
  unfold Fits
  split
  · exact (welcome _ rfl).elim
  · exact form

/-- A bracket below which a caret stands is a curly one, so what it encloses fits either way. -/
theorem Fits.of_bracketed (opening : Welcomes frames ∨ bracket = .curly)
    (inside : Forms first kinds items second)
    (given : bracketValue second bracket start stop items = .ok closed) :
    Fits frames first (.opening bracket :: (kinds ++ [.closing bracket])) closed.value
      closed.literals := by
  unfold Fits
  split
  · rcases opening with welcome | rfl
    · exact (welcome _ rfl).elim
    · exact inside.braced given
  · exact inside.bracketed given

/-- The tokens taken so far by a reader with the given stack: what every frame waits behind is
derived already, and a bracket is where its token stands. The numbers are those for the next literal
at the start and now. -/
inductive Opened : Nat → List Token → List Frame → Nat → Prop where
  | start : Opened first [] [] first
  | bracket (outer : Opened first tokens frames second) (kind : token.kind = .opening bracket)
      (opening : Welcomes frames ∨ bracket = .curly)
      (inside : Forms second (kindsOf tokens') items.reverse third) :
      Opened first (tokens ++ token :: tokens') (.bracket bracket token.span.start items :: frames)
        third
  | shorthand (outer : Opened first tokens frames second) (kind : token.kind = .shorthand mark)
      (welcome : Welcomes frames) :
      Opened first (tokens ++ [token]) (.shorthand mark :: frames) second
  | caret (outer : Opened first tokens frames second) (kind : token.kind = .caret)
      (welcome : Welcomes frames) : Opened first (tokens ++ [token]) (.caret :: frames) second
  | metadata (outer : Opened first tokens frames second) (kind : token.kind = .caret)
      (welcome : Welcomes frames) (literal : MapLiteral second (kindsOf tokens') map third) :
      Opened first (tokens ++ token :: tokens') (.metadata map :: frames) third

/-- What the progress of a reader says about the tokens taken so far. -/
def Progress.Accounts (first : Nat) (tokens : List Token) (second : Nat) : Progress → Prop
  | .done value => Form first (kindsOf tokens) value second
  | .pending frames => Opened first tokens frames second

/-- A fitting form that is put on a stack keeps the account. A shorthand or metadata on top makes a
longer form of it at once, so the induction goes down the stack. -/
theorem Opened.settle (opened : Opened first tokens frames second)
    (fits : Fits frames second (kindsOf tokens') value third) :
    (settle value frames).Accounts first (tokens ++ tokens') third := by
  induction opened generalizing tokens' value third with
  | start => exact fits
  | bracket outer kind opening inside =>
    have longer := inside.snoc fits
    rw [← List.reverse_cons, ← List.map_append] at longer
    simpa [MiniLisp.settle, Progress.Accounts] using Opened.bracket outer kind opening longer
  | @shorthand _ _ second token mark outer kind welcome ih =>
    have longer : Form second (kindsOf (token :: tokens')) (.list [.sym ⟨mark.name⟩, value]) third := by
      rw [kindsOf, List.map_cons, kind]
      exact .shorthand fits
    have wrapped := ih (Fits.of_form welcome longer)
    simpa [MiniLisp.settle] using wrapped
  | caret outer kind welcome =>
    simpa [MiniLisp.settle, Progress.Accounts] using Opened.metadata outer kind welcome fits
  | @metadata _ _ second inside map _ token outer kind welcome literal ih =>
    have longer : Form second (kindsOf (token :: (inside ++ tokens')))
        (.list [.sym ⟨"with-meta"⟩, value, map]) third := by
      rw [kindsOf, List.map_cons, kind, List.map_append]
      exact .metadata literal fits
    have carried := ih (Fits.of_form welcome longer)
    simpa [MiniLisp.settle] using carried

/-- One token keeps the account. -/
theorem Opened.step (opened : Opened first tokens frames second)
    (taken : readToken stop second frames token = .ok ⟨progress, third⟩) :
    progress.Accounts first (tokens ++ [token]) third := by
  unfold readToken at taken
  split at taken
  · next kind =>
    cases taken
    exact .bracket opened kind (.inr rfl) .nil
  · cases taken
  · next awaits kind =>
    cases taken
    exact .bracket opened kind (.inl fun outer same => awaits outer same) .nil
  · next kind =>
    split at taken
    · next same =>
      subst same
      cases opened with
      | bracket outer opens opening inside =>
        obtain ⟨closed, given, settled⟩ := exists_of_map_eq_ok taken
        cases settled
        have fits := Fits.of_bracketed opening inside given
        rw [← opens, ← kind, ← List.map_singleton, ← List.map_append, ← List.map_cons] at fits
        simpa using outer.settle fits
    · cases taken
  · cases taken
  · next awaits kind =>
    cases taken
    exact .shorthand opened kind fun outer same => awaits outer same
  · next awaits kind =>
    cases taken
    exact .caret opened kind fun outer same => awaits outer same
  · next awaits kind =>
    cases taken
    refine opened.settle (.of_form (fun outer same => awaits outer same) ?_)
    rw [kindsOf, List.map_singleton, kind]
    exact .str
  · next awaits kind =>
    obtain ⟨value, accepted, settled⟩ := exists_of_map_eq_ok taken
    cases settled
    refine opened.settle (.of_form (fun outer same => awaits outer same) ?_)
    rw [kindsOf, List.map_singleton, kind]
    exact .atom accepted

/-- A whole run keeps the account: what is read is derived by the tokens taken. -/
theorem Opened.resume (opened : Opened first before frames second)
    (read : resume stop second frames tokens = .ok reading) :
    ∃ taken, tokens = taken ++ reading.after ∧
      Form first (kindsOf (before ++ taken)) reading.value reading.literals := by
  fun_induction MiniLisp.resume stop second frames tokens generalizing before with
  | case1 => cases read
  | case2 => cases read
  | case3 literals frames token tokens value literals' taken =>
    cases read
    exact ⟨[token], rfl, opened.step taken⟩
  | case4 literals frames token tokens frames' literals' taken ih =>
    obtain ⟨others, rfl, form⟩ := ih (opened.step taken) read
    exact ⟨token :: others, rfl, by simpa using form⟩

/-! ### Reading and derivations -/

theorem readForm_of_form (form : Form first (kindsOf tokens) value second) (stop : Nat)
    (rest : List Token) : readForm stop first (tokens ++ rest) = .ok ⟨value, rest, second⟩ :=
  form.resume tokens rest [] (by simp [Welcomes]) rfl

theorem form_of_readForm (read : readForm stop first tokens = .ok reading) :
    ∃ taken, tokens = taken ++ reading.after ∧
      Form first (kindsOf taken) reading.value reading.literals :=
  Opened.start.resume read

theorem readForm_iff_form : readForm stop first (tokens ++ rest) = .ok ⟨value, rest, second⟩ ↔
    Form first (kindsOf tokens) value second := by
  constructor
  · intro read
    obtain ⟨taken, same, form⟩ := form_of_readForm read
    rwa [List.append_cancel_right same]
  · exact fun form => readForm_of_form form stop rest

theorem parse_iff_form : parse first tokens = .ok ⟨value, second⟩ ↔
    Form first (kindsOf tokens) value second := by
  have whole : readForm (endOffset tokens) first tokens = .ok ⟨value, [], second⟩ ↔
      Form first (kindsOf tokens) value second := by
    have prefixed := @readForm_iff_form (endOffset tokens) first tokens [] value second
    rwa [List.append_nil] at prefixed
  rw [← whole, parse]
  split
  · next failed => simp [failed]
  · next read => simp [read]
  · next read => simp [read]

/-- Reading a text is parsing its tokens, if it can be cut into tokens and there are any. -/
theorem read_cases (literals : Nat) (text : String) :
    (∃ fault, tokenize text = .error fault ∧
        MiniLisp.read literals text = .error (.lexical fault)) ∨
      tokenize text = .ok [] ∧ MiniLisp.read literals text = .error .empty ∨
      ∃ tokens, tokenize text = .ok tokens ∧
        MiniLisp.read literals text = parse literals tokens := by
  unfold MiniLisp.read
  split
  · next fault failed => exact .inl ⟨fault, failed, rfl⟩
  · next cut => exact .inr (.inl ⟨cut, rfl⟩)
  · next tokens _ cut => exact .inr (.inr ⟨tokens, cut, rfl⟩)

theorem exists_tokens_of_read (read : MiniLisp.read literals text = .ok form) :
    ∃ tokens, tokenize text = .ok tokens ∧
      Form literals (kindsOf tokens) form.value form.literals := by
  rcases read_cases literals text with ⟨_, _, same⟩ | ⟨_, same⟩ | ⟨tokens, cut, same⟩
  · cases same.symm.trans read
  · cases same.symm.trans read
  · exact ⟨tokens, cut, parse_iff_form.1 (same.symm.trans read)⟩

theorem read_of_tokens (cut : tokenize text = .ok tokens)
    (form : Form literals (kindsOf tokens) value second) :
    MiniLisp.read literals text = .ok ⟨value, second⟩ := by
  have parsed := parse_iff_form.2 form
  unfold MiniLisp.read
  rw [cut]
  cases tokens with
  | nil => cases parsed
  | cons token tokens => exact parsed

/-- A text that reads does so whatever number its first map literal gets, and as the same value but for
the numbers of its literals. -/
theorem exists_read_renumber (first' : Nat) (read : MiniLisp.read first text = .ok form) :
    ∃ form', MiniLisp.read first' text = .ok form' ∧
      form'.value.unnumbered = form.value.unnumbered := by
  obtain ⟨tokens, cut, derived⟩ := exists_tokens_of_read read
  obtain ⟨value', second', derived', same⟩ := derived.renumber first'
  exact ⟨_, read_of_tokens cut derived', same⟩

/-- The maps that are read from a text are literals with the numbers that reading it uses up. -/
theorem numberedWithin_of_read (read : MiniLisp.read literals text = .ok form) :
    NumberedWithin literals form.literals form.value := by
  obtain ⟨tokens, -, derived⟩ := exists_tokens_of_read read
  exact derived.numberedWithin.2

/-- Tokens of the given kinds. The reader works on tokens, so kinds are put somewhere first. -/
def placed (kinds : List TokenKind) : List Token := kinds.map fun kind => ⟨kind, default⟩

theorem kindsOf_placed (kinds : List TokenKind) : kindsOf (placed kinds) = kinds := by
  simp [placed, kindsOf, Function.comp_def]

/-- Two forms at the start of the same tokens are one form. -/
theorem Form.unique (form : Form first kinds value second) (form' : Form first kinds' value' second')
    (same : kinds ++ rest = kinds' ++ rest') :
    kinds = kinds' ∧ rest = rest' ∧ value = value' ∧ second = second' := by
  rw [← kindsOf_placed kinds] at form
  rw [← kindsOf_placed kinds'] at form'
  have read := readForm_of_form form 0 (placed rest)
  have together : placed kinds ++ placed rest = placed kinds' ++ placed rest' := by
    simp only [placed, ← List.map_append, same]
  rw [together, readForm_of_form form' 0 (placed rest')] at read
  obtain ⟨rfl, left, rfl⟩ : value' = value ∧ placed rest' = placed rest ∧ second' = second := by
    simpa using read
  have rests : rest' = rest := by
    rw [← kindsOf_placed rest', left, kindsOf_placed]
  subst rests
  exact ⟨List.append_cancel_right same, rfl, rfl, rfl⟩

/-- Reading is derivation. Tokens are read as a form before any others, and leave just these, if and
only if the grammar derives the form from them; all tokens together are parsed if and only if it
derives the form from all of them; and no tokens start with two forms. -/
theorem reading_is_derivation :
    (∀ stop first tokens rest value second,
      readForm stop first (tokens ++ rest) = .ok ⟨value, rest, second⟩ ↔
        Form first (kindsOf tokens) value second) ∧
    (∀ first tokens value second,
      parse first tokens = .ok ⟨value, second⟩ ↔ Form first (kindsOf tokens) value second) ∧
    ∀ first kinds kinds' rest rest' value value' second second',
      Form first kinds value second → Form first kinds' value' second' →
        kinds ++ rest = kinds' ++ rest' →
          kinds = kinds' ∧ rest = rest' ∧ value = value' ∧ second = second' := by
  refine ⟨?_, ?_, ?_⟩
  · intro stop first tokens rest value second
    exact readForm_iff_form
  · intro first tokens value second
    exact parse_iff_form
  · intro first kinds kinds' rest rest' value value' second second' form form' same
    exact form.unique form' same

/-- A name with metadata, before a bracket that belongs to something else. -/
theorem reading_metadata_is_derivation :
    readForm 5 0 ([⟨.caret, ⟨0, 1⟩⟩, ⟨.opening .curly, ⟨1, 2⟩⟩, ⟨.closing .curly, ⟨2, 3⟩⟩,
        ⟨.atom "x", ⟨3, 4⟩⟩] ++ [⟨.closing .round, ⟨4, 5⟩⟩]) =
      .ok ⟨.list [.sym ⟨"with-meta"⟩, .sym ⟨"x"⟩, .map (.literal 0) []],
        [⟨.closing .round, ⟨4, 5⟩⟩], 1⟩ ∧
    parse 0 [⟨.caret, ⟨0, 1⟩⟩, ⟨.opening .curly, ⟨1, 2⟩⟩, ⟨.closing .curly, ⟨2, 3⟩⟩,
        ⟨.atom "x", ⟨3, 4⟩⟩] =
      .ok ⟨.list [.sym ⟨"with-meta"⟩, .sym ⟨"x"⟩, .map (.literal 0) []], 1⟩ ∧
    [TokenKind.closing .round] = [.closing .round] := by
  have map : MapLiteral 0 [.opening .curly, .closing .curly] (.map (.literal 0) []) 1 :=
    @MapLiteral.braced 0 [] 0 [] .nil
  have accepted : atomValue "x" ⟨3, 4⟩ = .ok (.sym ⟨"x"⟩) := rfl
  have name : Form 1 [.atom "x"] (.sym ⟨"x"⟩) 1 := .atom accepted
  have form := Form.metadata map name
  obtain ⟨prefixes, whole, unique⟩ := reading_is_derivation
  refine ⟨(prefixes _ _ _ _ _ _).2 form, (whole _ _ _ _).2 form, ?_⟩
  obtain ⟨-, left, -⟩ :=
    unique _ _ _ [.closing .round] [.closing .round] _ _ _ _ form form rfl
  exact left

end MiniLisp
