import MiniLisp.Proofs.Reader.Nesting
import MiniLisp.Proofs.Token.Stretches

/-! Where errors lie. The reader knows its open brackets from its stack; here the bracket that an error
about an early end starts at is told from the tokens alone, by which brackets match each other. The
spans of all errors hold characters of the text, and those of a token are just its own. -/

namespace MiniLisp

/-! ### Brackets that match -/

/-- Tokens in which every bracket is matched by another of the same kind. -/
inductive Matched : List TokenKind → Prop where
  | nil : Matched []
  | flat (flat : kind.IsFlat) (rest : Matched kinds) : Matched (kind :: kinds)
  | pair (inside : Matched kinds) (rest : Matched kinds') :
      Matched (.opening bracket :: (kinds ++ .closing bracket :: kinds'))

/-- Among the tokens behind an opening bracket is the closing one that matches it. -/
def Closed (bracket : Bracket) (after : List TokenKind) : Prop :=
  ∃ inside later, after = inside ++ .closing bracket :: later ∧ Matched inside

/-- The last opening bracket of some tokens that no closing bracket matches. -/
def LastUnclosed (tokens : List Token) (opening : Token) (bracket : Bracket) : Prop :=
  ∃ before after, tokens = before ++ opening :: after ∧ opening.kind = .opening bracket ∧
    ¬ Closed bracket (kindsOf after) ∧
    ∀ between other bracket' later, after = between ++ other :: later →
      other.kind = .opening bracket' → Closed bracket' (kindsOf later)

theorem Closed.append (closed : Closed bracket after) (more : List TokenKind) :
    Closed bracket (after ++ more) := by
  obtain ⟨inside, later, rfl, matched⟩ := closed
  exact ⟨inside, later ++ more, by simp, matched⟩

theorem Matched.append (matched : Matched kinds) (matched' : Matched kinds') :
    Matched (kinds ++ kinds') := by
  induction matched with
  | nil => exact matched'
  | flat flat rest ih => exact .flat flat ih
  | pair inside rest _ ih =>
    rw [List.cons_append, List.append_assoc]
    exact .pair inside ih

theorem Matched.bracketed (inside : Matched kinds) :
    Matched (.opening bracket :: (kinds ++ [.closing bracket])) := .pair inside .nil

theorem placed_cons (kind : TokenKind) (kinds : List TokenKind) :
    placed (kind :: kinds) = ⟨kind, default⟩ :: placed kinds := rfl

/-- A stack of brackets is the same behind matched brackets as before them. -/
theorem Matched.nestingVerdict (matched : Matched kinds) (opened : List Bracket)
    (more : List TokenKind) :
    nestingVerdict opened (placed (kinds ++ more)) = nestingVerdict opened (placed more) := by
  induction matched generalizing opened more with
  | nil => rfl
  | flat flat rest ih =>
    rw [List.cons_append, placed_cons, MiniLisp.nestingVerdict, @Token.nest_flat ⟨_, default⟩ flat]
    exact ih opened more
  | @pair kinds kinds' bracket inside rest ih ih' =>
    have behind := ih (bracket :: opened) (.closing bracket :: (kinds' ++ more))
    rw [List.cons_append, List.append_assoc, List.cons_append, placed_cons]
    refine behind.trans ?_
    simp only [placed_cons, MiniLisp.nestingVerdict, Token.nest, ↓reduceIte]
    exact ih' opened more

/-- No bracket before matched brackets is closed by one of them. -/
theorem Matched.not_closed (matched : Matched kinds) : ¬ Closed bracket kinds := by
  rintro ⟨inside, later, rfl, inner⟩
  have valid := matched.nestingVerdict [] []
  rw [List.append_nil, inner.nestingVerdict] at valid
  cases valid

/-- Every opening bracket among matched ones is closed behind it. -/
theorem Matched.closed (matched : Matched kinds) (split : kinds = before ++ .opening bracket :: after) :
    Closed bracket after := by
  induction matched generalizing before after with
  | nil => simp at split
  | flat flat rest ih =>
    obtain ⟨rfl, same⟩ | ⟨before', rfl, same⟩ := List.cons_eq_append_iff.1 split
    · cases same
      exact flat.elim
    · exact ih same
  | @pair kinds kinds' opened inside rest ih ih' =>
    obtain ⟨rfl, same⟩ | ⟨before', rfl, same⟩ := List.cons_eq_append_iff.1 split
    · cases same
      exact ⟨kinds, kinds', rfl, inside⟩
    -- The bracket stands inside the pair or behind it.
    · obtain ⟨between, rfl, tail⟩ | ⟨between, rfl, tail⟩ := List.append_eq_append_iff.1 same
      · obtain ⟨-, clash⟩ | ⟨others, -, behind⟩ := List.cons_eq_append_iff.1 tail
        · cases clash
        · exact ih' behind
      · obtain ⟨-, clash⟩ | ⟨others, rfl, rfl⟩ := List.cons_eq_append_iff.1 tail
        · cases clash
        · exact (ih rfl).append _

mutual

/-- The brackets of a form match each other. -/
theorem Form.matched : Form first kinds value second → Matched kinds
  | .atom _ | .str => .flat trivial .nil
  | .list inside | .vec inside => inside.matched.bracketed
  | .map literal => literal.matched
  | .shorthand wrapped => .flat trivial wrapped.matched
  | .metadata literal carrier => .flat trivial (literal.matched.append carrier.matched)

theorem MapLiteral.matched : MapLiteral first kinds value second → Matched kinds
  | .braced inside => inside.matched.bracketed

theorem Forms.matched : Forms first kinds values second → Matched kinds
  | .nil => .nil
  | .cons head tail => head.matched.append tail.matched

end

/-- A bracket with just forms behind it is the last one that is not closed. -/
theorem Forms.lastUnclosed (inside : Forms first (kindsOf after) values second)
    (kind : opening.kind = .opening bracket) (before : List Token) :
    LastUnclosed (before ++ opening :: after) opening bracket := by
  refine ⟨before, after, rfl, kind, inside.matched.not_closed, ?_⟩
  intro between other bracket' later same opens
  have split : kindsOf after = kindsOf between ++ .opening bracket' :: kindsOf later := by
    rw [same, ← opens, kindsOf, List.map_append, List.map_cons]
  exact inside.matched.closed split

/-! ### Places in a text -/

/-- A span of at least one character of a text, both ends of which lie between characters. -/
structure WithinText (text : String) (span : Span) : Prop where
  some : span.start < span.stop
  bounded : span.stop ≤ byteLength text.toList
  characters : ∃ before slice after, Slice 0 text.toList span before slice after

theorem Slice.withinText (found : Slice 0 text.toList span before slice after) (some : slice ≠ []) :
    WithinText text span := by
  have start := found.start
  have stop := found.stop
  have bytes := byteLength_pos some
  have whole : byteLength text.toList = byteLength before + byteLength slice + byteLength after := by
    rw [found.whole, byteLength_append, byteLength_append]
  exact ⟨by omega, by omega, before, slice, after, found⟩

theorem ne_nil_of_tokensFrom (cut : tokensFrom offset text = .ok (token :: tokens)) : text ≠ [] := by
  rintro rfl
  rw [tokensFrom_nil rfl] at cut
  cases cut

theorem withinText_of_mem (cut : tokenize text = .ok tokens) (member : token ∈ tokens) :
    WithinText text token.span := by
  obtain ⟨before, slice, after, found, alone⟩ := tokensFrom_slices cut token member
  exact found.withinText (ne_nil_of_tokensFrom alone)

/-- A token and all that follow it lie within the text. -/
theorem withinText_to_end (cut : tokenize text = .ok (before ++ opening :: after)) :
    WithinText text ⟨opening.span.start, endOffset (before ++ opening :: after)⟩ := by
  rw [tokenize, ← List.append_nil after] at cut
  obtain ⟨front, slice, back, found, stretch⟩ := tokensFrom_stretch cut
  rw [endOffset_append (List.cons_ne_nil opening after)]
  exact found.withinText (ne_nil_of_tokensFrom stretch)

theorem FirstRefused.mem (refused : FirstRefused first tokens token) : token ∈ tokens := by
  obtain ⟨before, after, rfl, -, -⟩ := refused
  simp

/-- The reader reports the span of a token, or one from a bracket to the end of all tokens. -/
theorem withinText_of_parse (cut : tokenize text = .ok tokens)
    (failed : parse first tokens = .error error) (place : error.span? = some span) :
    WithinText text span := by
  cases error with
  | lexical => rcases parse_error failed with early | blamed <;> contradiction
  | unexpectedToken found expected =>
    cases place
    exact withinText_of_mem cut (parse_token failed rfl).mem
  | unexpectedEnd => cases place
  | unterminated bracket =>
    cases place
    obtain ⟨before, opening, inside, -, -, -, rfl, -, -, rfl⟩ := parse_unterminated failed
    exact withinText_to_end cut
  | oddEntries =>
    cases place
    obtain ⟨before, opening, inside, closing, after, rfl, -, -, rfl⟩ := parse_oddEntries failed
    exact withinText_to_end cut
  | invalidNumber spelled =>
    cases place
    exact withinText_of_mem cut (parse_token failed rfl).mem
  | empty => cases place

theorem lastUnclosed_of_parse (failed : parse first tokens = .error (.unterminated bracket span)) :
    ∃ opening last, LastUnclosed tokens opening bracket ∧ tokens.getLast? = some last ∧
      span = ⟨opening.span.start, last.span.stop⟩ := by
  obtain ⟨before, opening, inside, second, values, third, rfl, kind, forms, rfl⟩ :=
    parse_unterminated failed
  refine ⟨opening, _, forms.lastUnclosed kind before, List.getLast?_eq_some_getLast (by simp), ?_⟩
  rw [endOffset, List.getLast?_eq_some_getLast (by simp)]

/-- Errors point to their cause. If the text ends inside a bracket, this is the last opening bracket
that no closing one matches, of the kind that the error names, and the span goes from there to the end
of the last token. A span always holds some characters of the text and cuts none of them. And if an
error names a token, its span is that of the first token of the text that the reader refuses. -/
theorem read_errors_point_to_cause (failed : MiniLisp.read first text = .error error) :
    (∀ bracket span, error = .unterminated bracket span →
      ∃ tokens opening last, tokenize text = .ok tokens ∧ LastUnclosed tokens opening bracket ∧
        tokens.getLast? = some last ∧ span = ⟨opening.span.start, last.span.stop⟩) ∧
    (∀ span, error.span? = some span → WithinText text span) ∧
    (∀ found expected, error = .unexpectedToken found expected →
      error.span? = some found.span ∧
        ∃ tokens, tokenize text = .ok tokens ∧ FirstRefused first tokens found) ∧
    ∀ spelled span, error = .invalidNumber spelled span →
      ∃ tokens, tokenize text = .ok tokens ∧ FirstRefused first tokens ⟨.atom spelled, span⟩ := by
  rcases read_cases first text with ⟨fault, faulty, same⟩ | ⟨-, same⟩ | ⟨tokens, cut, same⟩
  · cases same.symm.trans failed
    refine ⟨nofun, fun span place => ?_, nofun, nofun⟩
    cases place
    obtain ⟨before, slice, after, found, some⟩ := tokensFrom_error_slice faulty
    exact found.withinText some
  · cases same.symm.trans failed
    exact ⟨nofun, nofun, nofun, nofun⟩
  · have failed := same.symm.trans failed
    refine ⟨?_, fun span => withinText_of_parse cut failed, ?_, ?_⟩
    · rintro bracket span rfl
      obtain ⟨opening, last, unclosed, isLast, place⟩ := lastUnclosed_of_parse failed
      exact ⟨tokens, opening, last, cut, unclosed, isLast, place⟩
    · rintro found expected rfl
      exact ⟨rfl, tokens, cut, parse_token failed rfl⟩
    · rintro spelled span rfl
      exact ⟨tokens, cut, parse_token failed rfl⟩

/-- An open vector behind a closed list, a bracket of the wrong kind behind a wide character, and a
number that is too large. -/
theorem read_errors_point_to_cause_kinds :
    (MiniLisp.read 0 "(() [é" = .error (.unterminated .square ⟨4, 7⟩) ∧
      ∃ tokens opening last, tokenize "(() [é" = .ok tokens ∧ LastUnclosed tokens opening .square ∧
        tokens.getLast? = some last ∧ (⟨4, 7⟩ : Span) = ⟨opening.span.start, last.span.stop⟩) ∧
    (MiniLisp.read 0 "(λ ])" = .error (.unexpectedToken ⟨.closing .square, ⟨4, 5⟩⟩ .form) ∧
      WithinText "(λ ])" ⟨4, 5⟩ ∧ ∃ tokens, tokenize "(λ ])" = .ok tokens ∧
        FirstRefused 0 tokens ⟨.closing .square, ⟨4, 5⟩⟩) ∧
    (MiniLisp.read 0 "[-9223372036854775809]" =
        .error (.invalidNumber "-9223372036854775809" ⟨1, 21⟩) ∧
      ∃ tokens, tokenize "[-9223372036854775809]" = .ok tokens ∧
        FirstRefused 0 tokens ⟨.atom "-9223372036854775809", ⟨1, 21⟩⟩) := by
  have unclosed : MiniLisp.read 0 "(() [é" = .error (.unterminated .square ⟨4, 7⟩) := by cbv
  have misplaced : MiniLisp.read 0 "(λ ])" =
      .error (.unexpectedToken ⟨.closing .square, ⟨4, 5⟩⟩ .form) := by cbv
  have large : MiniLisp.read 0 "[-9223372036854775809]" =
      .error (.invalidNumber "-9223372036854775809" ⟨1, 21⟩) := by cbv
  obtain ⟨bracket, -, -, -⟩ := read_errors_point_to_cause unclosed
  obtain ⟨-, within, token, -⟩ := read_errors_point_to_cause misplaced
  obtain ⟨-, -, -, number⟩ := read_errors_point_to_cause large
  exact ⟨⟨unclosed, bracket _ _ rfl⟩, ⟨misplaced, within _ rfl, (token _ _ rfl).2⟩,
    large, number _ _ rfl⟩

end MiniLisp
