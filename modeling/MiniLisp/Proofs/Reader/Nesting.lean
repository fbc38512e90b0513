import MiniLisp.Console.Validator
import MiniLisp.Proofs.Reader.Completion

/-! Nesting of brackets. A stack of brackets is run over tokens: an opening bracket is put on it, and
a closing one takes the innermost away, which it must match. The reader keeps its open brackets in
this order among the other things it waits for, so the stack of brackets can be read off its own, and
what the reader makes of some tokens tells how the run ends. -/

namespace MiniLisp

/-- The open brackets after a token, the innermost first. A closing bracket that does not match is
pointed out. -/
def Token.nest (opened : List Bracket) (token : Token) : Except Verdict (List Bracket) :=
  match token.kind, opened with
  | .opening bracket, _ => .ok (bracket :: opened)
  | .closing bracket, innermost :: outer =>
    if innermost = bracket then .ok outer else .error (.unmatched bracket token.span.start)
  | .closing bracket, [] => .error (.unmatched bracket token.span.start)
  | _, _ => .ok opened

/-- The verdict of a stack of brackets that is run over tokens: the first closing bracket that does
not match, or else whether brackets are open in the end. -/
def nestingVerdict (opened : List Bracket) : List Token → Verdict
  | [] => if opened.isEmpty then .valid else .incomplete
  | token :: tokens =>
    match token.nest opened with
    | .error verdict => verdict
    | .ok opened => nestingVerdict opened tokens

/-- The kinds of token that leave every bracket as it is. -/
def TokenKind.IsFlat : TokenKind → Prop
  | opening _ => False
  | closing _ => False
  | _ => True

theorem Token.nest_flat {token : Token} (flat : token.kind.IsFlat) (opened : List Bracket) :
    token.nest opened = .ok opened := by
  unfold Token.nest
  split <;> simp_all [TokenKind.IsFlat]

/-- A verdict in the middle of a run is about a bracket that does not match. -/
theorem Token.nest_error {token : Token} (stopped : token.nest opened = .error verdict) :
    ∃ bracket, verdict = .unmatched bracket token.span.start := by
  unfold Token.nest at stopped
  split at stopped
  · cases stopped
  · split at stopped
    · cases stopped
    · cases stopped
      exact ⟨_, rfl⟩
  · cases stopped
    exact ⟨_, rfl⟩
  · cases stopped

/-! ### The brackets on the reader's stack -/

/-- The bracket that a frame has open. -/
def Frame.bracket? : Frame → Option Bracket
  | bracket opened _ _ => some opened
  | _ => none

/-- The brackets that are open on a stack. -/
def openBrackets (frames : List Frame) : List Bracket := frames.filterMap Frame.bracket?

/-- The brackets that are open after a token. -/
def Progress.openBrackets : Progress → List Bracket
  | done _ => []
  | pending frames => MiniLisp.openBrackets frames

theorem settle_openBrackets (value : Value) (frames : List Frame) :
    (settle value frames).openBrackets = openBrackets frames := by
  fun_induction settle value frames with
  | case1 => rfl
  | case2 => rfl
  | case3 _ _ _ ih => exact ih
  | case4 => rfl
  | case5 _ _ _ ih => exact ih

/-- A token that the reader takes nests in the open brackets of its stack. -/
theorem readToken_nest (taken : readToken stop literals frames token = .ok ⟨progress, literals'⟩) :
    token.nest (openBrackets frames) = .ok progress.openBrackets := by
  unfold readToken at taken
  split at taken
  · next kind =>
    cases taken
    simp only [Token.nest, kind]
    rfl
  · cases taken
  · next kind =>
    cases taken
    simp only [Token.nest, kind]
    rfl
  · next bracket start items outer closed kind =>
    split at taken
    · next same =>
      obtain ⟨value, -, settled⟩ := exists_of_map_eq_ok taken
      cases settled
      have top : openBrackets (.bracket bracket start items :: outer) =
          bracket :: openBrackets outer := rfl
      simp only [Token.nest, kind, top, same, ↓reduceIte, settle_openBrackets]
    · cases taken
  · cases taken
  · next kind =>
    cases taken
    exact Token.nest_flat (by rw [kind]; trivial) _
  · next kind =>
    cases taken
    exact Token.nest_flat (by rw [kind]; trivial) _
  · next kind =>
    cases taken
    rw [settle_openBrackets]
    exact Token.nest_flat (by rw [kind]; trivial) _
  · next kind =>
    obtain ⟨value, -, settled⟩ := exists_of_map_eq_ok taken
    cases settled
    rw [settle_openBrackets]
    exact Token.nest_flat (by rw [kind]; trivial) _

/-- All brackets of a form are closed. -/
theorem nestingVerdict_of_usesUp (finish : UsesUp (resume stop literals frames tokens)) :
    nestingVerdict (openBrackets frames) tokens = .valid := by
  obtain ⟨value, second, read⟩ := finish
  fun_induction resume stop literals frames tokens with
  | case1 => cases read
  | case2 => cases read
  | case3 literals frames token tokens value' literals' taken =>
    cases read
    rw [nestingVerdict, readToken_nest taken]
    rfl
  | case4 literals frames token tokens frames' literals' taken ih =>
    rw [nestingVerdict, readToken_nest taken]
    exact ih read

/-- Tokens that end inside a bracket leave a bracket open, and every one before it matches. -/
theorem nestingVerdict_of_unterminated
    (failed : resume stop literals frames tokens = .error (.unterminated bracket span)) :
    nestingVerdict (openBrackets frames) tokens = .incomplete := by
  fun_induction resume stop literals frames tokens with
  | case1 literals frames =>
    unfold endError at failed
    split at failed
    · rfl
    · repeat' split at failed
      all_goals cases failed
  | case2 literals frames token tokens error stopped =>
    cases failed
    exact ((readToken_error stopped).not_endsEarly trivial).elim
  | case3 => cases failed
  | case4 literals frames token tokens frames' literals' taken ih =>
    rw [nestingVerdict, readToken_nest taken]
    exact ih failed

/-! ### Texts -/

theorem nestingVerdict_of_parse (parsed : parse first tokens = .ok form) :
    nestingVerdict [] tokens = .valid :=
  nestingVerdict_of_usesUp (parses_iff.1 ⟨form, parsed⟩)

theorem nestingVerdict_of_parse_unterminated
    (failed : parse first tokens = .error (.unterminated bracket span)) :
    nestingVerdict [] tokens = .incomplete := by
  unfold parse at failed
  split at failed
  · next error stopped =>
    cases failed
    exact nestingVerdict_of_unterminated stopped
  · cases failed
  · cases failed

end MiniLisp
