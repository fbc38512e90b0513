import MiniLisp.Proofs.Reader.Derivation

/-! Where the reader stops. The reader takes token after token. If it fails, then either at the end, when
it has taken all of them, or at a token that it refuses, when it has taken all before this one. What it
has taken by then is told by the grammar. -/

namespace MiniLisp

/-- What the reader makes of some tokens, all of which it takes. -/
inductive Taken (stop first : Nat) : List Token → Progress → Nat → Prop where
  | start : Taken stop first [] (.pending []) first
  | step (before : Taken stop first tokens (.pending frames) literals)
      (taken : readToken stop literals frames token = .ok ⟨progress, literals'⟩) :
      Taken stop first (tokens ++ [token]) progress literals'

theorem Taken.accounts (taken : Taken stop first tokens progress second) :
    progress.Accounts first tokens second := by
  induction taken with
  | start => exact .start
  | step before taken ih => exact ih.step taken

/-- How the reader refuses a token: another one has to stand there, or it is an atom for a number beyond
the words, or it closes a map with an odd number of forms in it. -/
inductive Refuses (stop : Nat) : List Frame → Token → ReadError → Prop where
  | misplaced : Refuses stop frames token (.unexpectedToken token expected)
  | number (kind : token.kind = .atom text) :
      Refuses stop frames token (.invalidNumber text token.span)
  | odd (kind : token.kind = .closing .curly) (odd : items.length % 2 = 1) :
      Refuses stop (.bracket .curly start items :: outer) token (.oddEntries ⟨start, stop⟩)

/-- Only curly brackets can fail to give a value, and do so around an odd number of forms. -/
theorem bracketValue_eq_error_iff :
    bracketValue literals bracket start stop items = .error error ↔
      bracket = .curly ∧ items.length % 2 = 1 ∧ error = .oddEntries ⟨start, stop⟩ := by
  cases bracket with
  | round => simp [bracketValue]
  | square => simp [bracketValue]
  | curly =>
    have even := @Entries.pairUp?_isSome_iff items
    simp only [bracketValue]
    cases paired : Entries.pairUp? items with
    | none =>
      have odd : items.length % 2 = 1 := by
        rw [paired] at even
        simp at even
        omega
      simp [odd, eq_comm]
    | some entries =>
      have odd : items.length % 2 ≠ 1 := by
        rw [paired] at even
        simp at even
        omega
      simp [odd]

theorem readToken_refuses (refused : readToken stop literals frames token = .error error) :
    Refuses stop frames token error := by
  unfold readToken at refused
  split at refused
  case h_4 bracket start items outer closed kind =>
    split at refused
    · next same =>
      obtain ⟨rfl, odd, rfl⟩ := bracketValue_eq_error_iff.1 (error_of_map_eq_error refused)
      subst same
      rw [List.length_reverse] at odd
      exact .odd kind odd
    · cases refused
      exact .misplaced
  case h_9 text _ kind =>
    have failed := error_of_map_eq_error refused
    unfold atomValue at failed
    repeat' split at failed
    all_goals cases failed
    exact .number kind
  all_goals cases refused
  all_goals exact .misplaced

/-- How reading some tokens fails. -/
inductive Stops (stop first : Nat) (tokens : List Token) : ReadError → Prop where
  /-- All of them are taken, and a bracket is open. -/
  | unclosed (taken : Taken stop first tokens (.pending (.bracket bracket start items :: outer))
      literals) : Stops stop first tokens (.unterminated bracket ⟨start, stop⟩)
  /-- All of them are taken, and something else waits. -/
  | missing (taken : Taken stop first tokens (.pending frames) literals)
      (reported : endError stop frames = .unexpectedEnd expected) :
      Stops stop first tokens (.unexpectedEnd expected)
  /-- One of them is refused. -/
  | atToken (split : tokens = before ++ token :: after)
      (taken : Taken stop first before (.pending frames) literals)
      (refused : readToken stop literals frames token = .error error) :
      Stops stop first tokens error
  /-- One of them follows a complete form. -/
  | behind (split : tokens = before ++ token :: after)
      (taken : Taken stop first before (.done value) literals) :
      Stops stop first tokens (.unexpectedToken token .endOfInput)

/-- At the end, an innermost bracket is reported, or else something that is missing. -/
theorem endError_cases (stop : Nat) (frames : List Frame) :
    (∃ bracket start items outer, frames = .bracket bracket start items :: outer) ∨
      ∃ expected, endError stop frames = .unexpectedEnd expected := by
  unfold endError
  split
  · exact .inl ⟨_, _, _, _, rfl⟩
  · split <;> exact .inr ⟨_, rfl⟩

theorem Taken.stops (taken : Taken stop first tokens (.pending frames) literals) :
    Stops stop first tokens (endError stop frames) := by
  rcases endError_cases stop frames with ⟨bracket, start, items, outer, rfl⟩ | ⟨expected, same⟩
  · exact .unclosed taken
  · rw [same]
    exact .missing taken same

theorem Taken.resume_error (before : Taken stop first done (.pending frames) literals)
    (failed : resume stop literals frames tokens = .error error) :
    Stops stop first (done ++ tokens) error := by
  fun_induction resume stop literals frames tokens generalizing done with
  | case1 literals frames =>
    cases failed
    rw [List.append_nil]
    exact before.stops
  | case2 literals frames token tokens error' refused =>
    cases failed
    exact .atToken rfl before refused
  | case3 => cases failed
  | case4 literals frames token tokens frames' literals' taken ih =>
    simpa using ih (before.step taken) failed

theorem Taken.resume_ok (before : Taken stop first done (.pending frames) literals)
    (read : resume stop literals frames tokens = .ok reading) :
    ∃ taken, tokens = taken ++ reading.after ∧
      Taken stop first (done ++ taken) (.done reading.value) reading.literals := by
  fun_induction resume stop literals frames tokens generalizing done with
  | case1 => cases read
  | case2 => cases read
  | case3 literals frames token tokens value literals' taken =>
    cases read
    exact ⟨[token], rfl, before.step taken⟩
  | case4 literals frames token tokens frames' literals' taken ih =>
    obtain ⟨others, rfl, taken'⟩ := ih (before.step taken) read
    exact ⟨token :: others, rfl, by simpa using taken'⟩

theorem parse_stops (failed : parse first tokens = .error error) :
    Stops (endOffset tokens) first tokens error := by
  unfold parse at failed
  split at failed
  · next stopped =>
    cases failed
    exact Taken.start.resume_error stopped
  · cases failed
  · next value token after literals read =>
    cases failed
    obtain ⟨taken, same, whole⟩ := Taken.start.resume_ok read
    exact .behind same whole

/-! ### The first token that is refused -/

theorem Taken.of_concat (taken : Taken stop first (tokens ++ [token]) progress second) :
    ∃ frames literals, Taken stop first tokens (.pending frames) literals ∧
      readToken stop literals frames token = .ok ⟨progress, second⟩ := by
  generalize same : tokens ++ [token] = whole at taken
  cases taken with
  | start => simp at same
  | step before taken =>
    obtain ⟨rfl, last⟩ := List.append_inj' same rfl
    cases last
    exact ⟨_, _, before, taken⟩

/-- What the reader makes of some tokens is determined by them. -/
theorem Taken.unique (taken : Taken stop first tokens progress second)
    (taken' : Taken stop first tokens progress' second') :
    progress = progress' ∧ second = second' := by
  induction taken generalizing progress' second' with
  | start =>
    generalize none : ([] : List Token) = tokens at taken'
    cases taken' with
    | start => exact ⟨rfl, rfl⟩
    | step => simp at none
  | step before taken ih =>
    obtain ⟨frames, literals, before', taken'⟩ := taken'.of_concat
    obtain ⟨same, rfl⟩ := ih before'
    cases same
    rw [taken] at taken'
    cases taken'
    exact ⟨rfl, rfl⟩

/-- The reader takes these tokens without an error when it is given all tokens of a text. -/
def Takes (first : Nat) (tokens before : List Token) : Prop :=
  ∃ progress second, Taken (endOffset tokens) first before progress second

/-- The reader takes all tokens before this one, but not this one. -/
def FirstRefused (first : Nat) (tokens : List Token) (token : Token) : Prop :=
  ∃ before after, tokens = before ++ token :: after ∧ Takes first tokens before ∧
    ¬ Takes first tokens (before ++ [token])

theorem firstRefused_of_readToken (split : tokens = before ++ token :: after)
    (taken : Taken (endOffset tokens) first before (.pending frames) literals)
    (refused : readToken (endOffset tokens) literals frames token = .error error) :
    FirstRefused first tokens token := by
  refine ⟨before, after, split, ⟨_, _, taken⟩, ?_⟩
  rintro ⟨progress, second, longer⟩
  obtain ⟨frames', literals', taken', accepted⟩ := longer.of_concat
  obtain ⟨same, rfl⟩ := taken.unique taken'
  cases same
  rw [refused] at accepted
  cases accepted

/-- No token is taken behind a complete form. -/
theorem firstRefused_of_done (split : tokens = before ++ token :: after)
    (taken : Taken (endOffset tokens) first before (.done value) literals) :
    FirstRefused first tokens token := by
  refine ⟨before, after, split, ⟨_, _, taken⟩, ?_⟩
  rintro ⟨progress, second, longer⟩
  obtain ⟨frames', literals', taken', -⟩ := longer.of_concat
  cases (taken.unique taken').1

/-! ### What the errors of the reader say -/

/-- The token that an error names. -/
def ReadError.token? : ReadError → Option Token
  | unexpectedToken found _ => some found
  | invalidNumber text span => some ⟨.atom text, span⟩
  | _ => none

/-- The token that an error names is the first that the reader refuses. -/
theorem parse_token (failed : parse first tokens = .error error) (named : error.token? = some token) :
    FirstRefused first tokens token := by
  cases parse_stops failed with
  | unclosed => cases named
  | missing => cases named
  | @atToken before token' after _ _ _ split taken refused =>
    have same : token' = token := by
      cases readToken_refuses refused with
      | misplaced => exact Option.some.inj named
      | number kind => rw [← Option.some.inj named, ← kind]
      | odd => cases named
    subst same
    exact firstRefused_of_readToken split taken refused
  | behind split taken =>
    cases named
    exact firstRefused_of_done split taken

/-- If a bracket is not closed, there are just forms behind it. -/
theorem parse_unterminated (failed : parse first tokens = .error (.unterminated bracket span)) :
    ∃ before opening inside second values third, tokens = before ++ opening :: inside ∧
      opening.kind = .opening bracket ∧ Forms second (kindsOf inside) values third ∧
      span = ⟨opening.span.start, endOffset tokens⟩ := by
  cases parse_stops failed with
  | unclosed taken =>
    have opened : Opened first tokens (.bracket bracket _ _ :: _) _ := taken.accounts
    cases opened with
    | bracket outer kind opening inside => exact ⟨_, _, _, _, _, _, rfl, kind, inside, rfl⟩
  | atToken split taken refused => cases readToken_refuses refused

/-- The tokens of a map literal with an odd number of forms in it. -/
structure OddLiteral (opening : Token) (inside : List Token) (closing : Token) : Prop where
  opens : opening.kind = .opening .curly
  closes : closing.kind = .closing .curly
  odd : ∃ first values second, Forms first (kindsOf inside) values second ∧ values.length % 2 = 1

/-- If a map literal is odd, its closing bracket is refused. -/
theorem parse_oddEntries (failed : parse first tokens = .error (.oddEntries span)) :
    ∃ before opening inside closing after, tokens = before ++ opening :: (inside ++ closing :: after) ∧
      OddLiteral opening inside closing ∧ FirstRefused first tokens closing ∧
      span = ⟨opening.span.start, endOffset tokens⟩ := by
  cases parse_stops failed with
  | @atToken before closing after frames _ _ split taken refused =>
    have first := firstRefused_of_readToken split taken refused
    cases readToken_refuses refused with
    | odd closes odd =>
      have opened : Opened _ before (.bracket .curly _ _ :: _) _ := taken.accounts
      cases opened with
      | bracket outer opens fits inside =>
        rw [List.append_assoc, List.cons_append] at split
        rw [← List.length_reverse] at odd
        exact ⟨_, _, _, _, _, split, ⟨opens, closes, _, _, _, inside, odd⟩, first, rfl⟩

end MiniLisp
