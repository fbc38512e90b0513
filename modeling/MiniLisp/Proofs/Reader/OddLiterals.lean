import MiniLisp.Proofs.Reader.Stops
import MiniLisp.Proofs.Token.Stretches

/-! Map literals with an odd number of forms. The error about one starts at its opening bracket, but
goes on to the end of the last token of the text, as if the literal were not closed. It is the literal
that is at fault all the same: its characters are refused by themselves, with or without those up to
where the error ends, and each time as a whole. -/

namespace MiniLisp

/-- An odd literal is refused whatever follows it. -/
theorem OddLiteral.readForm (odd : OddLiteral opening inside closing) (stop literals : Nat)
    (after : List Token) : readForm stop literals (opening :: (inside ++ closing :: after)) =
      .error (.oddEntries ⟨opening.span.start, stop⟩) := by
  obtain ⟨first, values, second, forms, count⟩ := odd.odd
  obtain ⟨values', second', forms, same⟩ := forms.renumber literals
  have lengths := congrArg List.length same
  simp only [Value.unnumberedAll_eq_map, List.length_map] at lengths
  have count : (values'.reverse ++ []).reverse.length % 2 = 1 := by
    rw [List.append_nil, List.reverse_reverse, lengths, count]
  have refused : readToken stop second'
      [.bracket .curly opening.span.start (values'.reverse ++ [])] closing =
        .error (.oddEntries ⟨opening.span.start, stop⟩) := by
    unfold readToken
    simp only [odd.closes, ↓reduceIte, bracketValue_eq_error_iff.2 ⟨rfl, count, rfl⟩]
    rfl
  rw [MiniLisp.readForm, resume_cons (readToken_opening (.inr rfl) odd.opens)]
  refine (forms.resume inside (closing :: after) [] [] rfl).trans ?_
  rw [MiniLisp.resume, refused]

theorem OddLiteral.parse (odd : OddLiteral opening inside closing) (literals : Nat)
    (after : List Token) : parse literals (opening :: (inside ++ closing :: after)) =
      .error (.oddEntries ⟨opening.span.start, endOffset (opening :: (inside ++ closing :: after))⟩) := by
  rw [MiniLisp.parse, odd.readForm]

theorem kindsOf_moved (distance : Nat) (tokens : List Token) :
    kindsOf (tokens.map (Token.moved distance)) = kindsOf tokens := by
  simp [kindsOf, Token.moved, Function.comp_def]

/-- A literal is odd wherever it stands. -/
theorem OddLiteral.of_moved (odd : OddLiteral (opening.moved distance)
    (inside.map (Token.moved distance)) (closing.moved distance)) :
    OddLiteral opening inside closing := by
  obtain ⟨opens, closes, forms⟩ := odd
  rw [kindsOf_moved] at forms
  exact ⟨opens, closes, forms⟩

/-- Reading the characters of a span by themselves fails, with a map literal that is all of them. -/
def OddAlone (text : String) (span : Span) : Prop :=
  ∃ before slice after, Slice 0 text.toList span before slice after ∧
    ∀ literals, MiniLisp.read literals (String.ofList slice) =
      .error (.oddEntries ⟨0, byteLength slice⟩)

/-- From the opening bracket of an odd literal up to the end of its closing bracket or of any token
behind that, a text is refused as a whole. -/
theorem OddLiteral.alone (odd : OddLiteral opening inside closing)
    (cut : tokenize text = .ok (before ++ opening :: (inside ++ closing :: after ++ later))) :
    OddAlone text ⟨opening.span.start, endOffset (opening :: (inside ++ closing :: after))⟩ := by
  obtain ⟨front, slice, back, first, others, found, alone, rfl, moved, start, stop⟩ :=
    tokenize_stretch cut
  refine ⟨front, slice, back, found, fun literals => ?_⟩
  obtain ⟨inside', rest, rfl, rfl, tail⟩ := List.map_eq_append_iff.1 moved.symm
  obtain ⟨closing', after', rfl, rfl, rfl⟩ := List.map_eq_cons_iff.1 tail
  rw [MiniLisp.read, alone]
  refine (odd.of_moved.parse literals after').trans ?_
  rw [start, stop]

/-- Tokens end where one of them does only if this is the last one. -/
theorem endOffset_eq_stop_iff (cut : tokenize text = .ok (before ++ token :: after)) :
    endOffset (token :: after) = token.span.stop ↔ after = [] := by
  obtain ⟨between, -, -, -, order⟩ := (tokensFrom_inOrder cut).split
  cases after with
  | nil => exact iff_of_true rfl rfl
  | cons next after =>
    obtain ⟨last, member, ends⟩ := exists_endOffset (List.cons_ne_nil next after)
    have behind := order.mem member
    rw [← List.singleton_append, endOffset_append (List.cons_ne_nil next after), ends]
    simp only [reduceCtorEq, iff_false]
    omega

/-- The error about an odd map literal starts where the literal does, but ends with the last token of the
text, and so with the literal only if nothing follows it. The reader does stop at the closing bracket of
this literal, and the characters of the literal and those of the error are each refused by themselves as
a whole. -/
theorem odd_literals_reported_to_end
    (failed : MiniLisp.read literals text = .error (.oddEntries span)) :
    ∃ before opening inside closing after last,
      tokenize text = .ok (before ++ opening :: (inside ++ closing :: after)) ∧
      OddLiteral opening inside closing ∧
      FirstRefused literals (before ++ opening :: (inside ++ closing :: after)) closing ∧
      (closing :: after).getLast? = some last ∧ span = ⟨opening.span.start, last.span.stop⟩ ∧
      (span.stop = closing.span.stop ↔ after = []) ∧
      OddAlone text span ∧ OddAlone text ⟨opening.span.start, closing.span.stop⟩ := by
  rcases read_cases literals text with ⟨_, -, same⟩ | ⟨-, same⟩ | ⟨tokens, cut, same⟩
  · cases same.symm.trans failed
  · cases same.symm.trans failed
  · obtain ⟨before, opening, inside, closing, after, rfl, odd, refused, rfl⟩ :=
      parse_oddEntries (same.symm.trans failed)
    have last := List.getLast?_eq_some_getLast (List.cons_ne_nil closing after)
    have regrouped : before ++ opening :: (inside ++ closing :: after) =
        before ++ opening :: inside ++ closing :: after := by simp
    have stop : endOffset (before ++ opening :: (inside ++ closing :: after)) =
        endOffset (closing :: after) := by
      rw [regrouped, endOffset_append (List.cons_ne_nil closing after)]
    refine ⟨before, opening, inside, closing, after, _, cut, odd, refused, last, ?_, ?_, ?_, ?_⟩
    · rw [stop, endOffset, last]
    · rw [stop]
      exact endOffset_eq_stop_iff (regrouped ▸ cut)
    · have whole : tokenize text =
          .ok (before ++ opening :: (inside ++ closing :: after ++ [])) := by rwa [List.append_nil]
      rw [endOffset_append (List.cons_ne_nil opening _)]
      exact odd.alone whole
    · have own : tokenize text =
          .ok (before ++ opening :: (inside ++ closing :: [] ++ after)) := by simpa using cut
      have alone := odd.alone own
      rwa [← List.cons_append, endOffset_append (List.cons_ne_nil closing [])] at alone

/-- An odd literal in a list that goes on. The literal inside it is even. -/
theorem odd_literals_reported_to_end_nested :
    MiniLisp.read 3 "(a \x7b\x7b:k 1\x7d 2 λ\x7d b)" = .error (.oddEntries ⟨3, 19⟩) ∧
    ∃ before opening inside closing after last,
      tokenize "(a \x7b\x7b:k 1\x7d 2 λ\x7d b)" =
        .ok (before ++ opening :: (inside ++ closing :: after)) ∧
      OddLiteral opening inside closing ∧
      FirstRefused 3 (before ++ opening :: (inside ++ closing :: after)) closing ∧
      (closing :: after).getLast? = some last ∧
      (⟨3, 19⟩ : Span) = ⟨opening.span.start, last.span.stop⟩ ∧
      (19 = closing.span.stop ↔ after = []) ∧
      OddAlone "(a \x7b\x7b:k 1\x7d 2 λ\x7d b)" ⟨3, 19⟩ ∧
      OddAlone "(a \x7b\x7b:k 1\x7d 2 λ\x7d b)" ⟨opening.span.start, closing.span.stop⟩ := by
  have failed : MiniLisp.read 3 "(a \x7b\x7b:k 1\x7d 2 λ\x7d b)" =
      .error (.oddEntries ⟨3, 19⟩) := by cbv
  exact ⟨failed, odd_literals_reported_to_end failed⟩

/-- The literal of this text ends at 5, and what ends where its error does is a round bracket. -/
theorem odd_literal_reported_too_long :
    MiniLisp.read 0 "(\x7b:a\x7d)" = .error (.oddEntries ⟨1, 6⟩) ∧
      ¬ ∃ before opening inside closing after,
        tokenize "(\x7b:a\x7d)" = .ok (before ++ opening :: (inside ++ closing :: after)) ∧
        OddLiteral opening inside closing ∧
        (⟨1, 6⟩ : Span) = ⟨opening.span.start, closing.span.stop⟩ := by
  have tokens : tokenize "(\x7b:a\x7d)" = .ok [⟨.opening .round, ⟨0, 1⟩⟩, ⟨.opening .curly, ⟨1, 2⟩⟩,
      ⟨.atom ":a", ⟨2, 4⟩⟩, ⟨.closing .curly, ⟨4, 5⟩⟩, ⟨.closing .round, ⟨5, 6⟩⟩] := by cbv
  refine ⟨by cbv, ?_⟩
  rintro ⟨before, opening, inside, closing, after, cut, odd, place⟩
  have closes := odd.closes
  have stop : closing.span.stop = 6 := (congrArg Span.stop place).symm
  rw [tokens, Except.ok.injEq] at cut
  have member : closing ∈ before ++ opening :: (inside ++ closing :: after) := by simp
  rw [← cut] at member
  simp only [List.mem_cons, List.not_mem_nil, or_false] at member
  rcases member with rfl | rfl | rfl | rfl | rfl <;> simp_all

end MiniLisp
