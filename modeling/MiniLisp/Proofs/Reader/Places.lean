import MiniLisp.Proofs.Reader.Grammar
import MiniLisp.Proofs.Token.Written
import MiniLisp.Value.Printer

/-! Reading without regard to places. The reader looks at the places of tokens only to report errors,
so forgetting them before it starts or after it is done comes to the same. Two texts with the same
kinds of token, however they are laid out, are read as the same value or fail with the same error but
for its places. -/

namespace MiniLisp

/-! ### Forgetting places -/

/-- The span that stands for any span. -/
def Span.nowhere : Span := ⟨0, 0⟩

/-- A token wherever it stands. -/
def Token.unplaced (token : Token) : Token := { token with span := .nowhere }

/-- An error without its places. -/
def ReadError.unplaced : ReadError → ReadError
  | lexical error => lexical { error with span := .nowhere }
  | unexpectedToken found expected => unexpectedToken found.unplaced expected
  | unexpectedEnd expected => unexpectedEnd expected
  | unterminated bracket _ => unterminated bracket .nowhere
  | oddEntries _ => oddEntries .nowhere
  | invalidNumber text _ => invalidNumber text .nowhere
  | empty => empty

/-- A frame without the place of its bracket. -/
def Frame.unplaced : Frame → Frame
  | bracket opened _ items => bracket opened 0 items
  | shorthand mark => shorthand mark
  | caret => caret
  | metadata map => metadata map

/-- Progress without the places of what is open. -/
def Progress.unplaced : Progress → Progress
  | done value => done value
  | pending frames => pending (frames.map Frame.unplaced)

/-- A reading without the places of the tokens after the form. -/
def Reading.unplaced (reading : Reading) : Reading :=
  { reading with after := reading.after.map Token.unplaced }

/-- Progress and the next literal's number, without the places of what is open. -/
def Numbered.unplaced (taken : Numbered Progress) : Numbered Progress :=
  ⟨taken.value.unplaced, taken.literals⟩

theorem Frame.missing?_unplaced (frame : Frame) : frame.unplaced.missing? = frame.missing? := by
  cases frame <;> rfl

/-! ### One token -/

theorem atomValue_nowhere (text : String) (span : Span) :
    atomValue text .nowhere = (atomValue text span).mapError ReadError.unplaced := by
  unfold atomValue
  repeat' split
  all_goals rfl

theorem bracketValue_nowhere (literals : Nat) (bracket : Bracket) (start stop : Nat)
    (items : List Value) : bracketValue literals bracket 0 0 items =
      (bracketValue literals bracket start stop items).mapError ReadError.unplaced := by
  cases bracket with
  | round => rfl
  | square => rfl
  | curly =>
    simp only [bracketValue]
    split <;> rfl

theorem settle_unplaced (value : Value) (frames : List Frame) :
    settle value (frames.map Frame.unplaced) = (settle value frames).unplaced := by
  fun_induction settle value frames with
  | case1 => rfl
  | case2 => rfl
  | case3 _ _ _ ih => exact ih
  | case4 => rfl
  | case5 _ _ _ ih => exact ih

/-- A form that is handed on leads to the same progress, whatever the number for the next literal. -/
private theorem handed_on (value : Value) (frames : List Frame) (literals : Nat) :
    (.ok ⟨settle value (frames.map Frame.unplaced), literals⟩ :
        Except ReadError (Numbered Progress)) =
      .ok (Numbered.unplaced ⟨settle value frames, literals⟩) := by
  rw [settle_unplaced]
  rfl

theorem endError_unplaced (stop : Nat) (frames : List Frame) :
    endError 0 (frames.map Frame.unplaced) = (endError stop frames).unplaced := by
  have missing : (frames.map Frame.unplaced).filterMap Frame.missing? =
      frames.filterMap Frame.missing? := by
    rw [List.filterMap_map]
    exact List.filterMap_congr fun frame _ => frame.missing?_unplaced
  cases frames with
  | nil => rfl
  | cons frame frames =>
    cases frame with
    | bracket => rfl
    | _ =>
      simp only [endError, List.map_cons, Frame.unplaced] at missing ⊢
      rw [missing]
      generalize (List.filterMap Frame.missing? _).getLast? = outermost
      cases outermost <;> rfl

/-- A token is taken in the same way wherever it stands. -/
theorem readToken_unplaced (stop literals : Nat) (frames : List Frame) (token : Token) :
    readToken 0 literals (frames.map Frame.unplaced) token.unplaced =
      Numbered.unplaced <$>
        (readToken stop literals frames token).mapError ReadError.unplaced := by
  obtain ⟨kind, span⟩ := token
  cases kind with
  | opening bracket =>
    cases bracket <;> rcases frames with _ | ⟨_ | _ | _ | _, outer⟩ <;> rfl
  | closing bracket =>
    rcases frames with _ | ⟨⟨opened, start, items⟩ | _ | _ | _, outer⟩
    case cons.bracket =>
      simp only [readToken, Frame.unplaced, List.map_cons, Token.unplaced,
        bracketValue_nowhere literals opened start stop]
      split
      · cases bracketValue literals opened start stop items.reverse with
        | error => rfl
        | ok closed => exact handed_on closed.value outer closed.literals
      · rfl
    all_goals rfl
  | shorthand mark => rcases frames with _ | ⟨_ | _ | _ | _, outer⟩ <;> rfl
  | caret => rcases frames with _ | ⟨_ | _ | _ | _, outer⟩ <;> rfl
  | str text =>
    have handed := handed_on (.str text) frames literals
    rcases frames with _ | ⟨_ | _ | _ | _, outer⟩
    case cons.caret => rfl
    all_goals exact handed
  | atom text =>
    have handed := fun value => handed_on value frames literals
    have same := atomValue_nowhere text span
    rcases frames with _ | ⟨_ | _ | _ | _, outer⟩
    case cons.caret => rfl
    all_goals
      simp only [readToken, Token.unplaced, List.map_nil, List.map_cons, Frame.unplaced, same]
        at handed ⊢
      cases atomValue text span with
      | error => rfl
      | ok value => exact handed value

/-! ### Runs of the reader -/

/-- The form that the tokens complete is the same wherever they stand. -/
theorem resume_unplaced (stop literals : Nat) (frames : List Frame) (tokens : List Token) :
    resume 0 literals (frames.map Frame.unplaced) (tokens.map Token.unplaced) =
      Reading.unplaced <$>
        (resume stop literals frames tokens).mapError ReadError.unplaced := by
  fun_induction resume stop literals frames tokens with
  | case1 literals frames => exact congrArg Except.error (endError_unplaced stop frames)
  | case2 literals frames token tokens error failed =>
    rw [List.map_cons, resume, readToken_unplaced stop, failed]
    rfl
  | case3 literals frames token tokens value literals' taken =>
    rw [List.map_cons, resume, readToken_unplaced stop, taken]
    rfl
  | case4 literals frames token tokens frames' literals' taken ih =>
    rw [List.map_cons, resume, readToken_unplaced stop, taken]
    exact ih

theorem endOffset_unplaced (tokens : List Token) : endOffset (tokens.map Token.unplaced) = 0 := by
  rw [endOffset, List.getLast?_map]
  cases tokens.getLast? <;> rfl

theorem parse_unplaced (literals : Nat) (tokens : List Token) :
    parse literals (tokens.map Token.unplaced) =
      (parse literals tokens).mapError ReadError.unplaced := by
  have same := resume_unplaced (endOffset tokens) literals [] tokens
  unfold parse readForm
  rw [endOffset_unplaced]
  rw [List.map_nil] at same
  rw [same]
  cases resume (endOffset tokens) literals [] tokens with
  | error => rfl
  | ok reading =>
    obtain ⟨value, after, literals⟩ := reading
    cases after <;> rfl

/-- Tokens of the same kinds are parsed alike. -/
theorem parse_congr_kinds (same : kindsOf tokens = kindsOf tokens') (literals : Nat) :
    (parse literals tokens).mapError ReadError.unplaced =
      (parse literals tokens').mapError ReadError.unplaced := by
  have unplaced : ∀ tokens : List Token,
      tokens.map Token.unplaced = (kindsOf tokens).map fun kind => ⟨kind, .nowhere⟩ := by
    intro tokens
    rw [List.map_map]
    rfl
  rw [← parse_unplaced, ← parse_unplaced, unplaced, unplaced, same]

/-- Texts with the same kinds of token are read alike. -/
theorem read_congr_kinds (cut : tokenize text = .ok tokens) (cut' : tokenize text' = .ok tokens')
    (same : kindsOf tokens = kindsOf tokens') (literals : Nat) :
    (read literals text).mapError ReadError.unplaced =
      (read literals text').mapError ReadError.unplaced := by
  have parsed := parse_congr_kinds same literals
  unfold read
  rw [cut, cut']
  cases tokens with
  | nil => rw [List.map_eq_nil_iff.1 same.symm]
  | cons token tokens =>
    obtain ⟨token', others, rfl, -, -⟩ := List.map_eq_cons_iff.1 same.symm
    exact parsed

/-- A text that is written token by token, each in its spelling and a string as it is printed, is cut
into just these tokens, each where it was written. How it is laid out does not matter to the reader:
written with any other trivia, the same kinds of token are read as the same value, or fail with the
same error but for its places. -/
theorem written_tokens_are_cut_and_read_alike :
    (∀ text, String.ofList (TokenKind.str text).spelling = (Value.str text).print) ∧
    (∀ written : Written, tokenize written.text = .ok written.tokens) ∧
    ∀ (literals : Nat) (written written' : Written), written.kinds = written'.kinds →
      (read literals written.text).mapError ReadError.unplaced =
        (read literals written'.text).mapError ReadError.unplaced := by
  refine ⟨fun text => rfl, Written.tokenize_text, ?_⟩
  intro literals written written' same
  have kinds : kindsOf written.tokens = kindsOf written'.tokens :=
    written.kindsOf_tokens.trans (same.trans written'.kindsOf_tokens.symm)
  exact read_congr_kinds written.tokenize_text written'.tokenize_text kinds literals

/-- A comment that holds an at sign stands between a tilde and an at sign, and the map whose only key
this is lacks a value. -/
theorem written_tokens_are_cut_and_read_alike_spread :
    tokenize ";é\r\x7b,~;@\n@\t\"λ\\n\" \x7d" = .ok [⟨.opening .curly, ⟨4, 5⟩⟩,
        ⟨.shorthand .unquote, ⟨6, 7⟩⟩, ⟨.shorthand .deref, ⟨10, 11⟩⟩, ⟨.str "λ\n", ⟨12, 18⟩⟩,
        ⟨.closing .curly, ⟨19, 20⟩⟩] ∧
      (read 0 "\x7b ~ @ \"λ\\n\" \x7d").mapError ReadError.unplaced =
        (read 0 ";é\r\x7b,~;@\n@\t\"λ\\n\" \x7d").mapError ReadError.unplaced := by
  have space : Trivia [' '] := .spacing rfl .nil
  have comma : Trivia [','] := .spacing rfl .nil
  have tab : Trivia ['\t'] := .spacing rfl .nil
  have letter : Trivia [';', 'é', '\r'] :=
    .comment (show ∀ c ∈ ['é'], breaksLine c = false from List.forall_mem_singleton.2 rfl) rfl .nil
  have sign : Trivia [';', '@', '\n'] :=
    .comment (show ∀ c ∈ ['@'], breaksLine c = false from List.forall_mem_singleton.2 rfl) rfl .nil
  let plain : Written := ⟨[], [⟨.opening .curly, _, trivial, space⟩,
    ⟨.shorthand .unquote, _, trivial, space⟩, ⟨.shorthand .deref, _, trivial, space⟩,
    ⟨.str "λ\n", _, trivial, space⟩, ⟨.closing .curly, [], trivial, .nil⟩], .nil, by simp⟩
  let spread : Written := ⟨_, [⟨.opening .curly, _, trivial, comma⟩,
    ⟨.shorthand .unquote, _, trivial, sign⟩, ⟨.shorthand .deref, _, trivial, tab⟩,
    ⟨.str "λ\n", _, trivial, space⟩, ⟨.closing .curly, [], trivial, .nil⟩], letter, by simp⟩
  obtain ⟨-, cut, alike⟩ := written_tokens_are_cut_and_read_alike
  exact ⟨cut spread, alike 0 plain spread rfl⟩

end MiniLisp
