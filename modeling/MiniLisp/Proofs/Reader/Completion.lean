import MiniLisp.Proofs.Reader.Stops

/-! Which tokens can be completed. If the reader stops at the end of the tokens, whatever it still
waits for can be given to it, so some further tokens make up a form with them. If it stops at a token
instead, no further ones help, since it stops there again; and a form that is complete takes no
further tokens. So the errors about an early end tell exactly the tokens that more can complete. -/

namespace MiniLisp

/-- The errors that say that the tokens ended too early. -/
def ReadError.EndsEarly : ReadError → Prop
  | unexpectedEnd _ => True
  | unterminated _ _ => True
  | _ => False

/-- The errors that lay the blame on a token, or on a bracket that it closes. -/
def ReadError.AtToken : ReadError → Prop
  | unexpectedToken _ _ => True
  | oddEntries _ => True
  | invalidNumber _ _ => True
  | _ => False

theorem ReadError.AtToken.not_endsEarly {error : ReadError} (blamed : error.AtToken) :
    ¬ error.EndsEarly := by
  cases error <;> simp_all [ReadError.AtToken, ReadError.EndsEarly]

/-! ### A run goes on as it began -/

/-- The end of the text plays a part only in the spans of errors. -/
theorem bracketValue_stop (given : bracketValue literals bracket start stop items = .ok closed)
    (stop' : Nat) : bracketValue literals bracket start stop' items = .ok closed := by
  cases bracket with
  | round => exact given
  | square => exact given
  | curly =>
    simp only [bracketValue] at given ⊢
    split at given
    · exact given
    · cases given

theorem readToken_stop (taken : readToken stop literals frames token = .ok result) (stop' : Nat) :
    readToken stop' literals frames token = .ok result := by
  unfold readToken at taken ⊢
  split at taken
  case h_4 bracket start items outer closed kind =>
    split at taken
    · next same =>
      obtain ⟨value, given, rfl⟩ := exists_of_map_eq_ok taken
      simp only [same, ↓reduceIte, bracketValue_stop given stop']
      rfl
    · cases taken
  all_goals exact taken

/-- A token that does not fit is blamed, and not the end of the text. -/
theorem readToken_error (failed : readToken stop literals frames token = .error error) :
    error.AtToken := by
  cases readToken_refuses failed <;> trivial

theorem endError_endsEarly (stop : Nat) (frames : List Frame) :
    (endError stop frames).EndsEarly := by
  unfold endError
  repeat' split
  all_goals trivial

theorem parse_error (failed : parse first tokens = .error error) :
    error.EndsEarly ∨ error.AtToken := by
  cases parse_stops failed with
  | unclosed => exact .inl trivial
  | missing => exact .inl trivial
  | atToken split taken refused => exact .inr (readToken_error refused)
  | behind split taken => exact .inr trivial

/-- A run that ends too early waits with some stack, from which it goes on when there are more
tokens; a run that ends at a token ends there whatever follows. -/
theorem resume_append_of_error (failed : resume stop literals frames tokens = .error error) :
    error.EndsEarly ∧ (∃ frames' literals', ∀ stop' more,
        resume stop' literals frames (tokens ++ more) = resume stop' literals' frames' more) ∨
      ¬ error.EndsEarly ∧ ∀ stop' more, ∃ error',
        resume stop' literals frames (tokens ++ more) = .error error' := by
  fun_induction resume stop literals frames tokens with
  | case1 literals frames =>
    cases failed
    exact .inl ⟨endError_endsEarly stop frames, frames, literals, fun _ _ => rfl⟩
  | case2 literals frames token tokens error' stopped =>
    cases failed
    refine .inr ⟨(readToken_error stopped).not_endsEarly, ?_⟩
    intro stop' more
    cases again : readToken stop' literals frames token with
    | ok result =>
      rw [readToken_stop again stop] at stopped
      cases stopped
    | error error'' =>
      refine ⟨error'', ?_⟩
      rw [List.cons_append, MiniLisp.resume, again]
  | case3 => cases failed
  | case4 literals frames token tokens frames' literals' taken ih =>
    have onward : ∀ stop' more, resume stop' literals frames (token :: tokens ++ more) =
        resume stop' literals' frames' (tokens ++ more) := by
      intro stop' more
      rw [List.cons_append, resume_cons (readToken_stop taken stop')]
      rfl
    simpa only [onward] using ih failed

/-! ### Whatever is awaited can be given -/

/-- A token that is a form by itself. -/
private def filler : Token := ⟨.str "", default⟩

/-- The run on these tokens ends with a form and uses them up. -/
def UsesUp (outcome : Except ReadError Reading) : Prop :=
  ∃ value literals, outcome = .ok ⟨value, [], literals⟩

/-- A bracket can be closed at once or after one more form. -/
theorem bracketValue_or_snoc (literals start : Nat) (bracket : Bracket) (items : List Value)
    (value : Value) :
    (∃ closed, ∀ stop, bracketValue literals bracket start stop items = .ok closed) ∨
      ∃ closed, ∀ stop, bracketValue literals bracket start stop (items ++ [value]) = .ok closed := by
  cases bracket with
  | round => exact .inl ⟨⟨.list items, literals⟩, fun _ => rfl⟩
  | square => exact .inl ⟨⟨.vec items, literals⟩, fun _ => rfl⟩
  | curly =>
    rcases Nat.mod_two_eq_zero_or_one items.length with even | odd
    · obtain ⟨entries, paired⟩ := Option.isSome_iff_exists.1 (Entries.pairUp?_isSome_iff.2 even)
      exact .inl ⟨⟨.map (.literal literals) entries, literals + 1⟩, fun _ => by
        simp only [bracketValue, paired]⟩
    · have even : (items ++ [value]).length % 2 = 0 := by
        rw [List.length_append, List.length_singleton]
        omega
      obtain ⟨entries, paired⟩ := Option.isSome_iff_exists.1 (Entries.pairUp?_isSome_iff.2 even)
      exact .inr ⟨⟨.map (.literal literals) entries, literals + 1⟩, fun _ => by
        simp only [bracketValue, paired]⟩

/-- Behind any form, some tokens finish what waits for it. -/
def Settles (frames : List Frame) : Prop :=
  ∀ literals value, ∃ more, ∀ stop, UsesUp (proceed stop literals more (settle value frames))

/-- An open bracket can be closed if what stands around it can be finished. -/
theorem Settles.bracket (outer : Settles frames) (literals start : Nat) (bracket : Bracket)
    (items : List Value) :
    ∃ token more, ∀ stop,
      UsesUp (resume stop literals (.bracket bracket start items :: frames) (token :: more)) := by
  let closing : Token := ⟨.closing bracket, default⟩
  rcases bracketValue_or_snoc literals start bracket items.reverse (.str "") with
    ⟨closed, given⟩ | ⟨closed, given⟩
  · obtain ⟨more, finish⟩ := outer closed.literals closed.value
    refine ⟨closing, more, fun stop => ?_⟩
    rw [resume_cons (readToken_closing rfl (given stop))]
    exact finish stop
  · obtain ⟨more, finish⟩ := outer closed.literals closed.value
    refine ⟨filler, closing :: more, fun stop => ?_⟩
    rw [resume_cons (readToken_str (by simp [Welcomes]) rfl)]
    change UsesUp (resume stop literals (.bracket bracket start (.str "" :: items) :: frames) _)
    have reversed := given stop
    rw [← List.reverse_cons] at reversed
    rw [resume_cons (readToken_closing rfl reversed)]
    exact finish stop

/-- A finished form finishes what waits for it up to the next bracket, so the induction goes down
the stack. -/
theorem settles (frames : List Frame) : Settles frames := by
  induction frames with
  | nil =>
    intro literals value
    exact ⟨[], fun stop => ⟨value, literals, rfl⟩⟩
  | cons frame frames ih =>
    intro literals value
    cases frame with
    | bracket bracket start items =>
      obtain ⟨token, more, finish⟩ := ih.bracket literals start bracket (value :: items)
      exact ⟨token :: more, finish⟩
    | shorthand mark => exact ih literals (.list [.sym ⟨mark.name⟩, value])
    | caret =>
      obtain ⟨more, finish⟩ := ih literals (.list [.sym ⟨"with-meta"⟩, .str "", value])
      refine ⟨filler :: more, fun stop => ?_⟩
      change UsesUp (resume stop literals (.metadata value :: frames) _)
      rw [resume_cons (readToken_str (by simp [Welcomes]) rfl)]
      exact finish stop
    | metadata map => exact ih literals (.list [.sym ⟨"with-meta"⟩, value, map])

/-- Every stack can be finished by some tokens, and not by none. -/
theorem resume_completable (literals : Nat) (frames : List Frame) :
    ∃ token more, ∀ stop, UsesUp (resume stop literals frames (token :: more)) := by
  by_cases welcome : Welcomes frames
  · obtain ⟨more, finish⟩ := settles frames literals (.str "")
    refine ⟨filler, more, fun stop => ?_⟩
    rw [resume_cons (readToken_str welcome rfl)]
    exact finish stop
  · -- A caret is on top, so only a map literal will do.
    obtain ⟨token, more, finish⟩ := (settles frames).bracket literals 0 .curly []
    let opening : Token := ⟨.opening .curly, ⟨0, 0⟩⟩
    refine ⟨opening, token :: more, fun stop => ?_⟩
    rw [resume_cons (readToken_opening (.inr rfl) rfl)]
    exact finish stop

/-! ### Parsing -/

/-- Some tokens make up a form. -/
def Parses (first : Nat) (tokens : List Token) : Prop := ∃ form, parse first tokens = .ok form

/-- The tokens make up a form, and with further ones they do not. -/
def Finished (first : Nat) (tokens : List Token) : Prop :=
  Parses first tokens ∧ ∀ more, more ≠ [] → ¬ Parses first (tokens ++ more)

/-- The tokens are said to end too early, and with some further ones they make up a form. -/
def Unfinished (first : Nat) (tokens : List Token) : Prop :=
  (∃ error, parse first tokens = .error error ∧ error.EndsEarly) ∧
    ∃ more, more ≠ [] ∧ Parses first (tokens ++ more)

/-- The tokens have another fault, and no further ones mend it. -/
def Spoiled (first : Nat) (tokens : List Token) : Prop :=
  (∃ error, parse first tokens = .error error ∧ ¬ error.EndsEarly) ∧
    ∀ more, ¬ Parses first (tokens ++ more)

theorem parses_iff : Parses first tokens ↔
    UsesUp (readForm (endOffset tokens) first tokens) := by
  unfold Parses UsesUp parse
  constructor
  · rintro ⟨form, parsed⟩
    split at parsed
    · cases parsed
    · next value literals read => exact ⟨value, literals, read⟩
    · cases parsed
  · rintro ⟨value, literals, read⟩
    exact ⟨⟨value, literals⟩, by rw [read]⟩

/-- Behind a form at the start of the tokens stays what followed it, and what is put there. -/
theorem readForm_append (read : readForm stop first tokens = .ok reading) (stop' : Nat)
    (more : List Token) : readForm stop' first (tokens ++ more) =
      .ok { reading with after := reading.after ++ more } := by
  obtain ⟨taken, rfl, form⟩ := form_of_readForm read
  rw [List.append_assoc]
  exact readForm_of_form form stop' (reading.after ++ more)

theorem not_parses_of_readForm (read : readForm stop first tokens = .ok reading)
    (left : reading.after ++ more ≠ []) : ¬ Parses first (tokens ++ more) := by
  rw [parses_iff, readForm_append read]
  rintro ⟨value, literals, same⟩
  exact left (congrArg Reading.after (Except.ok.inj same))

theorem finished_or_unfinished_or_spoiled (first : Nat) (tokens : List Token) :
    Finished first tokens ∨ Unfinished first tokens ∨ Spoiled first tokens := by
  cases read : readForm (endOffset tokens) first tokens with
  | error error =>
    have failed : parse first tokens = .error error := by rw [parse, read]
    rcases resume_append_of_error read with ⟨early, frames, literals, onward⟩ | ⟨final, again⟩
    · refine .inr (.inl ⟨⟨error, failed, early⟩, ?_⟩)
      obtain ⟨token, more, finish⟩ := resume_completable literals frames
      refine ⟨token :: more, List.cons_ne_nil token more, ?_⟩
      rw [parses_iff, readForm, onward]
      exact finish _
    · refine .inr (.inr ⟨⟨error, failed, final⟩, ?_⟩)
      intro more
      obtain ⟨error', failed'⟩ := again (endOffset (tokens ++ more)) more
      rw [parses_iff, readForm, failed']
      rintro ⟨value, literals, same⟩
      cases same
  | ok reading =>
    obtain ⟨value, after, literals⟩ := reading
    cases after with
    | nil =>
      refine .inl ⟨⟨⟨value, literals⟩, by rw [parse, read]⟩, ?_⟩
      intro more some
      exact not_parses_of_readForm read some
    | cons token others =>
      refine .inr (.inr ⟨⟨.unexpectedToken token .endOfInput, by rw [parse, read], id⟩, ?_⟩)
      intro more
      exact not_parses_of_readForm read (List.cons_ne_nil token _)

/-- Tokens either make up a form, which takes no further tokens, or end too early, which further
tokens mend, or have a fault that none mend; and only one of these. So the errors about an early end
are given for just those tokens that more can complete. -/
theorem parsing_finished_unfinished_spoiled (first : Nat) (tokens : List Token) :
    (Finished first tokens ∨ Unfinished first tokens ∨ Spoiled first tokens) ∧
      ¬ (Finished first tokens ∧ Unfinished first tokens) ∧
      ¬ (Finished first tokens ∧ Spoiled first tokens) ∧
      ¬ (Unfinished first tokens ∧ Spoiled first tokens) ∧
      ((∃ error, parse first tokens = .error error ∧ error.EndsEarly) ↔
        ∃ more, more ≠ [] ∧ Parses first (tokens ++ more)) := by
  have cases := finished_or_unfinished_or_spoiled first tokens
  have finishedUnfinished : ¬ (Finished first tokens ∧ Unfinished first tokens) := by
    rintro ⟨⟨-, alone⟩, -, more, some, parses⟩
    exact alone more some parses
  have finishedSpoiled : ¬ (Finished first tokens ∧ Spoiled first tokens) := by
    rintro ⟨⟨parses, -⟩, -, never⟩
    exact never [] (by rwa [List.append_nil])
  have unfinishedSpoiled : ¬ (Unfinished first tokens ∧ Spoiled first tokens) := by
    rintro ⟨⟨-, more, -, parses⟩, -, never⟩
    exact never more parses
  refine ⟨cases, finishedUnfinished, finishedSpoiled, unfinishedSpoiled, ?_, ?_⟩
  · rintro ⟨error, failed, early⟩
    rcases cases with ⟨⟨form, parsed⟩, -⟩ | ⟨-, mended⟩ | ⟨⟨error', failed', final⟩, -⟩
    · rw [parsed] at failed
      cases failed
    · exact mended
    · rw [failed'] at failed
      cases failed
      exact (final early).elim
  · rintro ⟨more, some, parses⟩
    rcases cases with ⟨-, alone⟩ | ⟨early, -⟩ | ⟨-, never⟩
    · exact (alone more some parses).elim
    · exact early
    · exact (never more parses).elim

end MiniLisp
