import Mathlib
import MiniLisp.Proofs.Reader.Completion

/-! Texts that end behind a prefix. If a text ends where a form or the map of a caret has to follow, its
last token is a prefix or closes the map of a caret, and this is the innermost thing that lacks
something. What the error names is the outermost one: a shorthand, or a caret that has its map, since
each of them puts its own name in place of the one inside. A caret without its map is named only if
there are no others. -/

namespace MiniLisp

/-- The tokens of one form. -/
def IsForm (kinds : List TokenKind) : Prop := ∃ first value second, Form first kinds value second

/-- The tokens of one map literal. -/
def IsMapLiteral (kinds : List TokenKind) : Prop :=
  ∃ first value second, MapLiteral first kinds value second

/-- Whether some tokens start with a phrase of a kind. -/
def StartsWith (phrase : List TokenKind → Prop) (kinds : List TokenKind) : Prop :=
  ∃ leading, leading <+: kinds ∧ phrase leading

/-- What a prefix lacks, given the tokens behind it. -/
inductive Lacks : TokenKind → List TokenKind → Expectation → Prop where
  | form (none : ¬ StartsWith IsForm after) : Lacks (.shorthand mark) after (.formAfter mark)
  | map (none : ¬ StartsWith IsMapLiteral after) : Lacks .caret after .metadata
  | carrier (literal : IsMapLiteral map) (whole : after = map ++ rest)
      (none : ¬ StartsWith IsForm rest) : Lacks .caret after .formAfterMetadata

/-- What the prefixes among some tokens lack, the outermost one first. -/
inductive Lacking : List TokenKind → List Expectation → Prop where
  | nil : Lacking [] []
  | lacks (head : Lacks kind kinds expected) (rest : Lacking kinds missing) :
      Lacking (kind :: kinds) (expected :: missing)
  | served (head : ∀ expected, ¬ Lacks kind kinds expected) (rest : Lacking kinds missing) :
      Lacking (kind :: kinds) missing

/-- What has to follow the last token: a form behind a shorthand or behind the map of a caret, and a map
behind a caret. -/
inductive EndsIn : List TokenKind → String → Prop where
  | shorthand : EndsIn (before ++ [.shorthand mark]) ("a form after " ++ mark.name)
  | caret : EndsIn (before ++ [.caret]) "a hash-map after '^'"
  | metadata (literal : IsMapLiteral map) :
      EndsIn (before ++ .caret :: map) "a form after with-meta"

/-- The first thing that is missing other than the map of a caret, or else such a map. -/
def reported (missing : List Expectation) : Expectation :=
  (missing.find? (· ≠ .metadata)).getD .metadata

/-! ### Whole forms lack nothing -/

theorem not_lacks_opening (expected : Expectation) : ¬ Lacks (.opening bracket) after expected :=
  nofun

theorem IsMapLiteral.isForm : IsMapLiteral kinds → IsForm kinds
  | ⟨first, value, second, literal⟩ => ⟨first, value, second, .map literal⟩

theorem IsForm.unique (form : IsForm kinds) (form' : IsForm kinds')
    (same : kinds ++ rest = kinds' ++ rest') : kinds = kinds' ∧ rest = rest' := by
  obtain ⟨first, value, second, form⟩ := form
  obtain ⟨first', value', second', form'⟩ := form'
  obtain ⟨_, _, renumbered, -⟩ := form'.renumber first
  obtain ⟨same, rests, -⟩ := form.unique renumbered same
  exact ⟨same, rests⟩

mutual

/-- A form lacks nothing, so what is missing is what the tokens behind it lack. -/
theorem Form.lacking : Form first kinds value second → Lacking after missing →
    Lacking (kinds ++ after) missing
  | .atom _, later => .served nofun later
  | .str, later => .served nofun later
  | .list inside, later | .vec inside, later => by
    rw [List.cons_append, List.append_assoc]
    exact .served not_lacks_opening (inside.lacking (.served nofun later))
  | .map literal, later => literal.lacking later
  | .shorthand wrapped, later => by
    refine .served (fun expected lacks => ?_) (wrapped.lacking later)
    cases lacks with
    | form none => exact none ⟨_, List.prefix_append _ _, _, _, _, wrapped⟩
  | .metadata literal carrier, later => by
    rw [List.cons_append, List.append_assoc]
    refine .served (fun expected lacks => ?_) (literal.lacking (carrier.lacking later))
    have isLiteral : IsMapLiteral _ := ⟨_, _, _, literal⟩
    cases lacks with
    | map none => exact none ⟨_, List.prefix_append _ _, isLiteral⟩
    | carrier literal' whole none =>
      obtain ⟨-, rfl⟩ := isLiteral.isForm.unique literal'.isForm whole
      exact none ⟨_, List.prefix_append _ _, _, _, _, carrier⟩

theorem MapLiteral.lacking : MapLiteral first kinds value second → Lacking after missing →
    Lacking (kinds ++ after) missing
  | .braced inside, later => by
    rw [List.cons_append, List.append_assoc]
    exact .served not_lacks_opening (inside.lacking (.served nofun later))

theorem Forms.lacking : Forms first kinds values second → Lacking after missing →
    Lacking (kinds ++ after) missing
  | .nil, later => later
  | .cons head tail, later => by
    rw [List.append_assoc]
    exact head.lacking (tail.lacking later)

end

/-! ### Tokens that finish nothing -/

/-- Whatever a reader waits for, these tokens do not finish it. -/
def Stalls (kinds : List TokenKind) : Prop :=
  ∀ stop literals frames tokens, kindsOf tokens = kinds →
    ∃ error, resume stop literals frames tokens = .error error

/-- Behind a caret, only the bracket of a map is taken. -/
theorem readToken_unwelcome (stop literals : Nat) (unwelcome : ¬ Welcomes frames)
    (other : token.kind ≠ .opening .curly) :
    ∃ error, readToken stop literals frames token = .error error := by
  obtain ⟨outer, rfl⟩ : ∃ outer, frames = .caret :: outer := by simpa [Welcomes] using unwelcome
  unfold readToken
  split
  · next kind => exact (other kind).elim
  · exact ⟨_, rfl⟩
  all_goals simp_all

namespace Stalls

theorem nil : Stalls [] := by
  intro stop literals frames tokens none
  rw [List.map_eq_nil_iff.1 none]
  exact ⟨_, rfl⟩

theorem cons (goesOn : ∀ stop literals frames token tokens, Welcomes frames ∨ kind = .opening .curly →
      token.kind = kind → kindsOf tokens = kinds →
        ∃ error, resume stop literals frames (token :: tokens) = .error error) :
    Stalls (kind :: kinds) := by
  intro stop literals frames tokens same
  obtain ⟨token, tokens, rfl, isKind, others⟩ := List.map_eq_cons_iff.1 same
  by_cases welcome : Welcomes frames ∨ kind = .opening .curly
  · exact goesOn stop literals frames token tokens welcome isKind others
  · obtain ⟨unwelcome, other⟩ := not_or.1 welcome
    rw [← isKind] at other
    obtain ⟨error, stopped⟩ := readToken_unwelcome stop literals unwelcome other
    exact ⟨error, by rw [resume, stopped]⟩

theorem opening (inside : Forms first kinds values second) (stalls : Stalls after) :
    Stalls (.opening bracket :: (kinds ++ after)) := by
  refine cons fun stop literals frames token tokens welcome kind same => ?_
  rw [TokenKind.opening.injEq] at welcome
  obtain ⟨forms, others, rfl, leading, same⟩ := List.map_eq_append_iff.1 same
  obtain ⟨_, _, inside', -⟩ := inside.renumber literals
  rw [resume_cons (readToken_opening welcome kind)]
  obtain ⟨error, stopped⟩ := stalls stop _ _ others same
  exact ⟨error, (inside'.resume forms others frames [] leading).trans stopped⟩

theorem shorthand (stalls : Stalls kinds) : Stalls (.shorthand mark :: kinds) := by
  refine cons fun stop literals frames token tokens welcome kind same => ?_
  rw [resume_cons (readToken_shorthand (welcome.resolve_right nofun) kind)]
  exact stalls stop _ _ tokens same

theorem caret (stalls : Stalls kinds) : Stalls (.caret :: kinds) := by
  refine cons fun stop literals frames token tokens welcome kind same => ?_
  rw [resume_cons (readToken_caret (welcome.resolve_right nofun) kind)]
  exact stalls stop _ _ tokens same

theorem metadata (literal : MapLiteral first map value second) (stalls : Stalls kinds) :
    Stalls (.caret :: (map ++ kinds)) := by
  refine cons fun stop literals frames token tokens welcome kind same => ?_
  obtain ⟨leading, others, rfl, isMap, same⟩ := List.map_eq_append_iff.1 same
  obtain ⟨_, _, literal', -⟩ := literal.renumber literals
  rw [resume_cons (readToken_caret (welcome.resolve_right nofun) kind)]
  obtain ⟨error, stopped⟩ := stalls stop _ _ others same
  exact ⟨error, (literal'.resume leading others _ isMap).trans stopped⟩

theorem not_startsWith (stalls : Stalls kinds) : ¬ StartsWith IsForm kinds := by
  rintro ⟨leading, ⟨rest, rfl⟩, first, value, second, form⟩
  have kinds : kindsOf (placed leading ++ placed rest) = leading ++ rest := by
    rw [kindsOf, List.map_append, ← kindsOf, ← kindsOf, kindsOf_placed, kindsOf_placed]
  obtain ⟨error, stopped⟩ := stalls 0 first [] _ kinds
  rw [← kindsOf_placed leading] at form
  cases (readForm_of_form form 0 (placed rest)).symm.trans stopped

end Stalls

/-! ### What a stack awaits -/

/-- What a frame awaits. A bracket can be closed at any time. -/
def Frame.awaits? : Frame → Option Expectation
  | caret => some .metadata
  | frame => frame.missing?

/-- What the frames of a stack await, the outermost one first. -/
def awaited (frames : List Frame) : List Expectation := (frames.filterMap Frame.awaits?).reverse

theorem awaited_cons (awaits : frame.awaits? = some expected) (frames : List Frame) :
    awaited (frame :: frames) = awaited frames ++ [expected] := by
  simp [awaited, awaits]

/-- The stack of a reader awaits what the prefixes among the tokens taken so far lack, if the tokens
behind them finish nothing. The induction goes down the stack, and the tokens behind the frame on top
join those that the frame itself stands for. -/
theorem Opened.lacking (opened : Opened first tokens frames second) (stalls : Stalls after)
    (later : Lacking after missing) :
    Lacking (kindsOf tokens ++ after) (awaited frames ++ missing) := by
  induction opened generalizing after missing with
  | start => exact later
  | bracket outer kind opening inside ih =>
    rw [kindsOf, List.map_append, List.map_cons, kind, List.append_assoc, List.cons_append]
    exact ih (.opening inside stalls) (.served not_lacks_opening (inside.lacking later))
  | shorthand outer kind welcome ih =>
    rw [kindsOf, List.map_append, List.map_singleton, kind, List.append_assoc, awaited_cons rfl,
      List.append_assoc]
    exact ih stalls.shorthand (.lacks (.form stalls.not_startsWith) later)
  | caret outer kind welcome ih =>
    have none : ¬ StartsWith IsMapLiteral after := by
      rintro ⟨map, leading, literal⟩
      exact stalls.not_startsWith ⟨map, leading, literal.isForm⟩
    rw [kindsOf, List.map_append, List.map_singleton, kind, List.append_assoc, awaited_cons rfl,
      List.append_assoc]
    exact ih stalls.caret (.lacks (.map none) later)
  | metadata outer kind welcome literal ih =>
    rw [kindsOf, List.map_append, List.map_cons, kind, List.append_assoc, List.cons_append,
      awaited_cons rfl, List.append_assoc]
    refine ih (.metadata literal stalls) (.lacks ?_ (literal.lacking later))
    exact .carrier ⟨_, _, _, literal⟩ rfl stalls.not_startsWith

theorem Opened.eq_nil (opened : Opened first tokens [] second) : kindsOf tokens = [] := by
  cases opened
  rfl

theorem Opened.endsIn (opened : Opened first tokens (frame :: frames) second)
    (awaits : frame.awaits? = some innermost) : EndsIn (kindsOf tokens) innermost.phrase := by
  cases opened with
  | bracket => cases awaits
  | shorthand outer kind =>
    cases awaits
    rw [kindsOf, List.map_append, List.map_singleton, kind]
    exact .shorthand
  | caret outer kind =>
    cases awaits
    rw [kindsOf, List.map_append, List.map_singleton, kind]
    exact .caret
  | metadata outer kind welcome literal =>
    cases awaits
    rw [kindsOf, List.map_append, List.map_cons, kind]
    exact .metadata ⟨_, _, _, literal⟩

/-- A run that ends too early ends with a stack that accounts for all tokens and gives the error. -/
theorem Opened.ends (opened : Opened first before frames second)
    (failed : MiniLisp.resume stop second frames tokens = .error error) (early : error.EndsEarly) :
    ∃ frames' third, Opened first (before ++ tokens) frames' third ∧
      error = endError stop frames' := by
  fun_induction MiniLisp.resume stop second frames tokens generalizing before with
  | case1 literals frames =>
    cases failed
    exact ⟨frames, literals, by simpa using opened, rfl⟩
  | case2 literals frames token tokens error' stopped =>
    cases failed
    exact ((readToken_error stopped).not_endsEarly early).elim
  | case3 => cases failed
  | case4 literals frames token tokens frames' literals' taken ih =>
    obtain ⟨frames'', third, opened', same⟩ := ih (opened.step taken) failed
    exact ⟨frames'', third, by simpa using opened', same⟩

/-! ### What the error names -/

/-- The stack has the innermost frame first, so the outermost one that is named is the last. -/
theorem getLast?_missing (frames : List Frame) :
    (frames.filterMap Frame.missing?).getLast? = (awaited frames).find? (· ≠ .metadata) := by
  have missing : frames.filterMap Frame.missing? =
      (frames.filterMap Frame.awaits?).filter (· ≠ .metadata) := by
    rw [List.filter_filterMap]
    exact List.filterMap_congr fun frame _ => by cases frame <;> rfl
  rw [missing, awaited, ← List.head?_filter, List.filter_reverse, List.head?_reverse]

/-- The error at the end of a text names what is reported of all that is missing, if the innermost frame
awaits something. -/
theorem endError_of_awaits (awaits : frame.awaits? = some innermost) (stop : Nat)
    (frames : List Frame) :
    endError stop (frame :: frames) = .unexpectedEnd (reported (awaited (frame :: frames))) := by
  unfold reported
  rw [← getLast?_missing]
  unfold endError
  split
  · next same =>
    cases same
    cases awaits
  · cases named : ((frame :: frames).filterMap Frame.missing?).getLast? with
    | some expected => rfl
    | none =>
      rw [List.getLast?_eq_none_iff] at named
      cases frame with
      | bracket => cases awaits
      | caret => rfl
      | shorthand mark => cases named
      | metadata map => cases named

/-- If a text ends where a form or the map of a caret has to follow, its last token is a shorthand, a
caret or the end of a caret's map, and so the innermost prefix that lacks something. The error names the
outermost one that lacks a form, and the map of a caret only if no prefix lacks a form. -/
theorem early_end_names_outermost_prefix
    (failed : MiniLisp.read literals text = .error (.unexpectedEnd expected)) :
    ∃ tokens missing innermost, tokenize text = .ok tokens ∧ Lacking (kindsOf tokens) missing ∧
      missing.getLast? = some innermost ∧ EndsIn (kindsOf tokens) innermost.phrase ∧
      expected = reported missing := by
  rcases read_cases literals text with ⟨_, _, same⟩ | ⟨_, same⟩ | ⟨tokens, cut, same⟩
  · cases same.symm.trans failed
  · cases same.symm.trans failed
  · have stopped : readForm (endOffset tokens) literals tokens = .error (.unexpectedEnd expected) := by
      have failed := same.symm.trans failed
      unfold parse at failed
      split at failed
      · next error stopped => rwa [← Except.error.inj failed]
      · cases failed
      · cases failed
    obtain ⟨frames, _, opened, named⟩ := Opened.start.ends stopped trivial
    cases frames with
    | nil =>
      have none : tokens = [] := List.map_eq_nil_iff.1 opened.eq_nil
      unfold MiniLisp.read at failed
      rw [cut, none] at failed
      cases failed
    | cons frame frames =>
      cases awaits : frame.awaits? with
      | none =>
        cases frame with
        | bracket => cases named
        | _ => cases awaits
      | some innermost =>
        have lacking := opened.lacking .nil .nil
        rw [List.append_nil, List.append_nil] at lacking
        rw [endError_of_awaits awaits] at named
        cases named
        refine ⟨tokens, _, innermost, cut, lacking, ?_, opened.endsIn awaits, rfl⟩
        rw [awaited_cons awaits, List.getLast?_concat]

/-- A caret with its map behind an unquote inside a quoted list. -/
theorem early_end_names_outermost_prefix_metadata :
    MiniLisp.read 0 "'(~^\x7ba 1\x7d" = .error (.unexpectedEnd (.formAfter .quote)) ∧
      ∃ missing innermost, Lacking [.shorthand .quote, .opening .round, .shorthand .unquote, .caret,
          .opening .curly, .atom "a", .atom "1", .closing .curly] missing ∧
        missing.getLast? = some innermost ∧ innermost.phrase = "a form after with-meta" ∧
        reported missing = .formAfter .quote := by
  have failed : MiniLisp.read 0 "'(~^\x7ba 1\x7d" = .error (.unexpectedEnd (.formAfter .quote)) := by
    cbv
  have cut' : tokenize "'(~^\x7ba 1\x7d" = .ok [⟨.shorthand .quote, ⟨0, 1⟩⟩,
      ⟨.opening .round, ⟨1, 2⟩⟩, ⟨.shorthand .unquote, ⟨2, 3⟩⟩, ⟨.caret, ⟨3, 4⟩⟩,
      ⟨.opening .curly, ⟨4, 5⟩⟩, ⟨.atom "a", ⟨5, 6⟩⟩, ⟨.atom "1", ⟨7, 8⟩⟩,
      ⟨.closing .curly, ⟨8, 9⟩⟩] := by
    cbv
  obtain ⟨tokens, missing, innermost, cut, lacking, last, ends, named⟩ :=
    early_end_names_outermost_prefix failed
  cases cut'.symm.trans cut
  refine ⟨failed, missing, innermost, lacking, last, ?_, named.symm⟩
  generalize innermost.phrase = phrase at ends
  generalize same : kindsOf _ = kinds at ends
  have closing := congrArg List.getLast? same
  cases ends with
  | shorthand => simp at closing
  | caret => simp at closing
  | metadata => rfl

/-- The last token is a quote, but the mark before it is named. -/
theorem outer_mark_named : ∃ expected tokens,
    MiniLisp.read 0 "@'" = .error (.unexpectedEnd expected) ∧ tokenize "@'" = .ok tokens ∧
      ¬ EndsIn (kindsOf tokens) expected.phrase := by
  refine ⟨.formAfter .deref, [⟨.shorthand .deref, ⟨0, 1⟩⟩, ⟨.shorthand .quote, ⟨1, 2⟩⟩], ?_, ?_, ?_⟩
  · cbv
  · cbv
  · intro ends
    generalize named : Expectation.phrase _ = phrase at ends
    generalize same : kindsOf _ = kinds at ends
    cases ends with
    | @shorthand before mark =>
      obtain rfl : mark = .quote := by simpa using (congrArg List.getLast? same).symm
      exact absurd named (by decide)
    | caret => exact absurd named (by decide)
    | metadata => exact absurd named (by decide)

end MiniLisp
