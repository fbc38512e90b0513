import MiniLisp.Console.Repl
import MiniLisp.Proofs.Console.Validation
import MiniLisp.Proofs.Token.Stretches

/-! Reading a form over several lines. A text is read as soon as the validator finds it complete, so
what matters are its verdicts on the texts that a form begins with. If the form begins with a bracket
or is a string, each of them is incomplete from the first character of the form up to its last token,
and complete from there on; none is ever rejected. -/

namespace MiniLisp

/-- The kinds of token that begin a form with an end of its own: opening brackets and strings. -/
def TokenKind.Encloses : TokenKind → Prop
  | opening _ => True
  | str _ => True
  | _ => False

/-! ### The brackets of a form that is not complete -/

/-- A stack with a bracket at its bottom, which is the last to be closed. -/
def Enclosed (frames : List Frame) : Prop :=
  ∃ inner bracket start items, frames = inner ++ [.bracket bracket start items]

theorem enclosed_cons : Enclosed (frame :: frames) ↔
    frames = [] ∧ (∃ bracket start items, frame = .bracket bracket start items) ∨
      Enclosed frames := by
  constructor
  · rintro ⟨inner, bracket, start, items, same⟩
    cases inner with
    | nil =>
      cases same
      exact .inl ⟨rfl, bracket, start, items, rfl⟩
    | cons first inner =>
      cases same
      exact .inr ⟨inner, bracket, start, items, rfl⟩
  · rintro (⟨rfl, bracket, start, items, rfl⟩ | ⟨inner, bracket, start, items, rfl⟩)
    · exact ⟨[], bracket, start, items, rfl⟩
    · exact ⟨frame :: inner, bracket, start, items, rfl⟩

theorem not_enclosed_nil : ¬ Enclosed [] := by
  rintro ⟨inner, bracket, start, items, same⟩
  cases inner <;> cases same

theorem Enclosed.openBrackets_ne_nil (enclosed : Enclosed frames) : openBrackets frames ≠ [] := by
  obtain ⟨inner, bracket, start, items, rfl⟩ := enclosed
  simp [openBrackets, Frame.bracket?]

/-- A form that is finished inside the bracket at the bottom leaves that bracket open. -/
theorem Enclosed.settle (enclosed : Enclosed frames) (value : Value) :
    ∃ frames', settle value frames = .pending frames' ∧ Enclosed frames' := by
  fun_induction MiniLisp.settle value frames with
  | case1 => exact (not_enclosed_nil enclosed).elim
  | case2 value bracket start items frames =>
    refine ⟨_, rfl, enclosed_cons.2 ?_⟩
    exact (enclosed_cons.1 enclosed).imp_left fun bottom => ⟨bottom.1, _, _, _, rfl⟩
  | case3 value mark frames ih => exact ih (by simpa [enclosed_cons] using enclosed)
  | case4 value frames => exact ⟨_, rfl, by simpa [enclosed_cons] using enclosed⟩
  | case5 value map frames ih => exact ih (by simpa [enclosed_cons] using enclosed)

/-- Only the bracket at the bottom completes the form, and until then it stays where it is. -/
theorem Enclosed.readToken (enclosed : Enclosed frames)
    (taken : readToken stop literals frames token = .ok ⟨.pending frames', literals'⟩) :
    Enclosed frames' := by
  have settles : ∀ {value frames}, Enclosed frames → MiniLisp.settle value frames = .pending frames' →
      Enclosed frames' := by
    intro value frames enclosed settled
    obtain ⟨frames'', settled', enclosed'⟩ := enclosed.settle value
    rw [settled'] at settled
    cases settled
    exact enclosed'
  unfold MiniLisp.readToken at taken
  split at taken
  · cases taken
    exact enclosed_cons.2 (.inr enclosed)
  · cases taken
  · cases taken
    exact enclosed_cons.2 (.inr enclosed)
  · next bracket start items outer closed kind =>
    split at taken
    · obtain ⟨value, -, same⟩ := exists_of_map_eq_ok taken
      have settled := congrArg Numbered.value same
      rcases enclosed_cons.1 enclosed with ⟨rfl, -⟩ | enclosed
      · cases settled
      · exact settles enclosed settled
    · cases taken
  · cases taken
  · cases taken
    exact enclosed_cons.2 (.inr enclosed)
  · cases taken
    exact enclosed_cons.2 (.inr enclosed)
  · exact settles enclosed (congrArg Numbered.value (Except.ok.inj taken))
  · obtain ⟨value, -, same⟩ := exists_of_map_eq_ok taken
    exact settles enclosed (congrArg Numbered.value same)

/-- Some, but not all tokens that complete a form inside a bracket leave a bracket open. -/
theorem Enclosed.nestingVerdict (enclosed : Enclosed frames)
    (finish : UsesUp (resume stop literals frames (done ++ later))) (some : later ≠ []) :
    MiniLisp.nestingVerdict (openBrackets frames) done = .incomplete := by
  induction done generalizing frames literals with
  | nil => simp [MiniLisp.nestingVerdict, enclosed.openBrackets_ne_nil]
  | cons token done ih =>
    obtain ⟨value, literals'', read⟩ := finish
    rw [List.cons_append, resume] at read
    split at read
    · cases read
    · have none : done ++ later = [] := congrArg Reading.after (Except.ok.inj read)
      exact (some (List.append_eq_nil_iff.1 none).2).elim
    · next frames' literals' taken =>
      rw [MiniLisp.nestingVerdict, readToken_nest taken]
      exact ih (enclosed.readToken taken) ⟨value, literals'', read⟩

/-- Some, but not all tokens of a form that has an end of its own leave a bracket open. -/
theorem nestingVerdict_of_part (parses : Parses literals (first :: done ++ later))
    (encloses : first.kind.Encloses) (some : later ≠ []) :
    nestingVerdict [] (first :: done) = .incomplete := by
  have finish := parses_iff.1 parses
  rw [readForm, List.cons_append] at finish
  have welcome : Welcomes [] := fun outer same => by cases same
  cases kind : first.kind with
  | opening bracket =>
    rw [resume_cons (readToken_opening (.inl welcome) kind)] at finish
    have nested : first.nest [] = .ok [bracket] := by simp only [Token.nest, kind]
    rw [nestingVerdict, nested]
    exact Enclosed.nestingVerdict ⟨[], bracket, _, [], rfl⟩ finish some
  | str text =>
    rw [resume_cons (readToken_str welcome kind)] at finish
    obtain ⟨value, literals', read⟩ := finish
    have none : done ++ later = [] := congrArg Reading.after (Except.ok.inj read)
    exact (some (List.append_eq_nil_iff.1 none).2).elim
  | _ => simp [kind, TokenKind.Encloses] at encloses

theorem nestingVerdict_append_flat (flat : token.kind.IsFlat) (opened : List Bracket)
    (tokens : List Token) :
    nestingVerdict opened (tokens ++ [token]) = nestingVerdict opened tokens := by
  induction tokens generalizing opened with
  | nil => simp only [List.nil_append, nestingVerdict, Token.nest_flat flat]
  | cons first tokens ih =>
    rw [List.cons_append, nestingVerdict, nestingVerdict]
    split <;> simp only [ih]

/-! ### Texts that a form begins with -/

theorem lt_endOffset (some : later ≠ []) (beyond : ∀ token ∈ later, place < token.span.stop) :
    place < endOffset (done ++ later) := by
  obtain ⟨last, member, stop⟩ := exists_endOffset some
  rw [endOffset_append some, stop]
  exact beyond last member

theorem endOffset_le (some : tokens ≠ []) (within : ∀ token ∈ tokens, token.span.stop ≤ place) :
    endOffset tokens ≤ place := by
  obtain ⟨last, member, stop⟩ := exists_endOffset some
  rw [stop]
  exact within last member

/-- If a text ends inside a token, then it lacks the end of a string, or the token is not one that
could enclose a form, and stays such a token. -/
theorem EndsInside.unterminated_or_flat (inside : EndsInside offset text done token) :
    (∃ place, tokensFrom offset text = .error ⟨.unterminatedString, place⟩) ∨
      ¬ token.kind.Encloses ∧ ∃ short : Token, short.kind.IsFlat ∧
        tokensFrom offset text = .ok (done ++ [short]) := by
  cases inside with
  | atom split some start stop cut =>
    refine .inr ⟨id, _, ?_, cut⟩
    trivial
  | tilde start stop cut =>
    refine .inr ⟨id, _, ?_, cut⟩
    trivial
  | str start stop failed => exact .inl ⟨_, failed⟩

section
variable {literals : Nat} {first : Token} {rest done later : List Token}

/-- A text that ends behind some tokens of a form, but not behind all of them. -/
theorem validate_of_part (paired : PairedOrLastReturns before)
    (parses : Parses literals (first :: rest)) (encloses : first.kind.Encloses)
    (split : first :: rest = done ++ later) (begun : done ≠ []) (some : later ≠ [])
    (cut : tokensFrom 0 before = .ok done) : validate before = .incomplete := by
  obtain ⟨token, done, rfl⟩ := List.exists_cons_of_ne_nil begun
  obtain rfl : first = token := (List.cons.inj split).1
  rw [split] at parses
  exact (validateFrom_of_tokens paired cut).trans (nestingVerdict_of_part parses encloses some)

/-- A text that ends inside a token of a form, and is not rejected. -/
theorem validate_of_endsInside (paired : PairedOrLastReturns before)
    (accepted : ∀ bracket place, validate before ≠ .unmatched bracket place)
    (parses : Parses literals (first :: rest)) (encloses : first.kind.Encloses)
    (split : first :: rest = done ++ token :: later) (inside : EndsInside 0 before done token) :
    validate before = .incomplete := by
  rcases inside.unterminated_or_flat with ⟨place, failed⟩ | ⟨other, short, flat, cut⟩
  · have unfinished : validate before ≠ .valid := validateFrom_of_unterminated paired failed
    cases verdict : validate before with
    | valid => exact (unfinished verdict).elim
    | incomplete => rfl
    | unmatched bracket place => exact (accepted bracket place verdict).elim
  · cases done with
    | nil =>
      cases split
      exact (other encloses).elim
    | cons token' done =>
      obtain rfl : first = token' := (List.cons.inj split).1
      rw [split] at parses
      have verdict : validate before = nestingVerdict [] (first :: done ++ [short]) :=
        validateFrom_of_tokens paired cut
      rw [verdict, nestingVerdict_append_flat flat]
      exact nestingVerdict_of_part parses encloses (List.cons_ne_nil token later)

end

/-- The verdict on a text that a form begins with. -/
theorem validate_of_form_cut (paired : PairedReturns (before ++ after))
    (parses : Parses literals (first :: rest)) (encloses : first.kind.Encloses)
    (cut : tokensFrom 0 (before ++ after) = .ok (first :: rest))
    (accepted : ∀ bracket place, validate before ≠ .unmatched bracket place) :
    validate before =
      if first.span.start < byteLength before ∧ byteLength before < endOffset (first :: rest)
      then .incomplete else .valid := by
  have order := tokensFrom_inOrder cut
  obtain ⟨done, later, parts, earlier, ends⟩ := tokensFrom_cut cut
  simp only [Nat.zero_add] at earlier ends
  have positive : ∀ token ∈ done ++ later, token.span.start < token.span.stop :=
    fun token member => (order.mem (parts ▸ member)).2.1
  have begins : done ≠ [] → first.span.start < byteLength before := by
    intro begun
    obtain ⟨token, done, rfl⟩ := List.exists_cons_of_ne_nil begun
    obtain rfl : first = token := (List.cons.inj parts).1
    exact (positive first (by simp)).trans_le (earlier first List.mem_cons_self)
  rcases ends with ⟨cutBefore, apart⟩ | ⟨token, others, rfl, inside, apart⟩
  · by_cases begun : done = []
    · -- The form has not begun.
      subst begun
      have verdict : validate before = .valid := validateFrom_of_tokens paired.cut cutBefore
      rw [List.nil_append] at parts
      have early : byteLength before ≤ first.span.start :=
        apart first (parts ▸ List.mem_cons_self)
      rw [verdict, if_neg (by omega)]
    by_cases some : later = []
    · -- The form is complete.
      rw [some, List.append_nil] at parts
      have verdict : validate before = nestingVerdict [] (first :: rest) :=
        validateFrom_of_tokens paired.cut (parts ▸ cutBefore)
      have late : endOffset (first :: rest) ≤ byteLength before :=
        endOffset_le (List.cons_ne_nil first rest) (parts ▸ earlier)
      obtain ⟨parsed, parses⟩ := parses
      rw [verdict, nestingVerdict_of_parse parses, if_neg (by omega)]
    · have goesOn : byteLength before < endOffset (done ++ later) :=
        lt_endOffset some fun token member =>
          (apart token member).trans_lt (positive token (List.mem_append_right _ member))
      rw [validate_of_part paired.cut parses encloses parts begun some cutBefore, parts,
        if_pos ⟨begins begun, goesOn⟩]
  · have start : first.span.start < byteLength before := by
      by_cases begun : done = []
      · subst begun
        obtain rfl : first = token := (List.cons.inj parts).1
        simpa using inside.start_lt
      · exact begins begun
    have goesOn : byteLength before < endOffset (done ++ token :: others) := by
      refine lt_endOffset (List.cons_ne_nil token others) ?_
      intro other member
      rcases List.mem_cons.1 member with rfl | member
      · simpa using inside.lt_stop
      · exact (apart other member).trans_lt
          (positive other (List.mem_append_right _ (List.mem_cons_of_mem _ member)))
    rw [validate_of_endsInside paired.cut accepted parses encloses parts inside, parts,
      if_pos ⟨start, goesOn⟩]

/-- Let a text read and begin with a bracket or be a string, up to spacing and comments, and let
every carriage return in it be followed by a line feed. Cut short at any place, the text is incomplete
between the start of its first token and the end of its last token, and complete everywhere else. So
the console, when a line brings what was typed up to such a place, silently waits for the next line,
and otherwise answers. -/
theorem part_of_form_is_incomplete (text : String) (paired : PairedReturns text.toList)
    (literals : Nat) (form : Numbered Value) (read : MiniLisp.read literals text = .ok form)
    (first : Token) (rest : List Token) (cut : tokenize text = .ok (first :: rest))
    (encloses : first.kind.Encloses) (before after : List Char)
    (split : text.toList = before ++ after) :
    (validate before =
      if first.span.start < byteLength before ∧ byteLength before < endOffset (first :: rest)
      then .incomplete else .valid) ∧
    ∀ (edited : List Char → List Char) (depth : Nat) (repl : Repl) (line : Line), repl.closed = false →
      edited (repl.pending ++ line.text) = before →
        Repl.feed edited depth repl line =
          if first.span.start < byteLength before ∧ byteLength before < endOffset (first :: rest)
          then ({ repl with pending := before ++ line.ending }, [])
          else Repl.answer depth repl before := by
  have parses : Parses literals (first :: rest) := ⟨form, by rw [← read, MiniLisp.read, cut]⟩
  have whole : validate text.toList = .valid := validate_of_read paired read
  rw [tokenize, split] at cut
  rw [split] at paired whole
  have accepted : ∀ bracket place, validate before ≠ .unmatched bracket place := by
    intro bracket place rejected
    rw [validate, validateFrom_append_of_unmatched rejected] at whole
    cases whole
  have verdict := validate_of_form_cut paired parses encloses cut accepted
  refine ⟨verdict, ?_⟩
  rintro edited depth repl line running typed
  have open_ : ¬ repl.closed = true := by simp [running]
  rw [Repl.feed, if_neg open_]
  simp only [typed, verdict]
  by_cases inside : first.span.start < byteLength before ∧
      byteLength before < endOffset (first :: rest)
  · rw [if_pos inside, if_pos inside]
  · rw [if_neg inside, if_neg inside]

/-- The closing bracket is still part of the string, and the rest of the text is in the next line. -/
theorem part_of_form_is_incomplete_string :
    PairedReturns "(\")\r\n\") ".toList ∧ MiniLisp.read 0 "(\")\r\n\") " =
        .ok ⟨.list [.str ")\r\n"], 0⟩ ∧
      tokenize "(\")\r\n\") " = .ok [⟨.opening .round, ⟨0, 1⟩⟩, ⟨.str ")\r\n", ⟨1, 6⟩⟩,
        ⟨.closing .round, ⟨6, 7⟩⟩] ∧
      validate ['(', '\x22', ')', '\r'] = .incomplete := by
  have paired : PairedReturns "(\")\r\n\") ".toList := by decide
  have read : MiniLisp.read 0 "(\")\r\n\") " = .ok ⟨.list [.str ")\r\n"], 0⟩ := by cbv
  have cut : tokenize "(\")\r\n\") " = .ok [⟨.opening .round, ⟨0, 1⟩⟩,
      ⟨.str ")\r\n", ⟨1, 6⟩⟩, ⟨.closing .round, ⟨6, 7⟩⟩] := by cbv
  refine ⟨paired, read, cut, ?_⟩
  rw [(part_of_form_is_incomplete _ paired 0 _ read _ _ cut trivial
    ['(', '\x22', ')', '\r'] ['\n', '\x22', ')', ' '] (by decide)).1]
  decide

end MiniLisp
