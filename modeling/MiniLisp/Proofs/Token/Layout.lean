import Mathlib
import MiniLisp.Proofs.Token.Cuts

/-! The layout of a text. If a text can be cut into tokens, it is made of their characters and of gaps
before, between and behind them. The gaps hold blanks, commas and comments only, and the characters of
a token make this token by themselves. If a text cannot be cut, the fault lies in a string literal, and
the text before its opening quote can be cut. -/

namespace MiniLisp

/-- The characters of a span in a text whose first byte has the given offset, and the characters of the
text before and after them. Both ends of the span lie between characters. -/
structure Slice (offset : Nat) (text : List Char) (span : Span) (before slice after : List Char) :
    Prop where
  whole : text = before ++ slice ++ after
  start : span.start = offset + byteLength before
  stop : span.stop = span.start + byteLength slice

/-- More text in front of a text moves its spans on. -/
theorem Slice.prepend (found : Slice (offset + byteLength first) text span before slice after) :
    Slice offset (first ++ text) span (first ++ before) slice after := by
  refine ⟨?_, ?_, found.stop⟩
  · rw [found.whole]
    simp only [List.append_assoc]
  · rw [found.start, byteLength_append, Nat.add_assoc]

/-- What is behind the first lexeme of a text is behind it in the whole text. -/
theorem Slice.behind_lexeme (split : splitTrivia false text = (trivia, c :: rest))
    (start : place = offset + byteLength trivia)
    (found : Slice (place + byteLength (lexeme c rest).text) (lexeme c rest).after span before slice
      after) : Slice offset text span (trivia ++ (lexeme c rest).text ++ before) slice after := by
  rw [start, Nat.add_assoc, ← byteLength_append] at found
  rw [text_of_split split]
  exact found.prepend

/-! ### Gaps -/

/-- The characters of a gap, before the text that follows it: blanks, commas, and comments. A comment
goes from a semicolon up to the next character that breaks the line, or to the end of the text. -/
inductive Gap : List Char → List Char → Prop where
  | nil : Gap [] after
  | spacing (separates : isSpacing c = true) (rest : Gap gap after) : Gap (c :: gap) after
  | comment (inside : ∀ c ∈ text, breaksLine c = false)
      (ends : ∀ c others, gap ++ after = c :: others → breaksLine c = true) (rest : Gap gap after) :
      Gap (';' :: (text ++ gap)) after

/-- One more character of a comment. -/
theorem Gap.inComment (goesOn : breaksLine c = false) (comment : Gap (';' :: gap) after) :
    Gap (';' :: c :: gap) after := by
  cases comment with
  | spacing separates => cases separates
  | @comment _ text gap inside ends rest =>
    rw [← List.cons_append]
    exact .comment (List.forall_mem_cons.2 ⟨goesOn, inside⟩) ends rest

/-- The character that breaks a line ends the comment in it. -/
theorem Gap.endComment (ends : breaksLine c = true) (rest : Gap gap after) :
    Gap (';' :: c :: gap) after := by
  have separates : isSpacing c = true := by simp [isSpacing, isBlank_of_breaksLine ends]
  rw [← List.nil_append (c :: gap)]
  refine .comment (by simp) ?_ (.spacing separates rest)
  intro d others same
  cases same
  exact ends

/-- What is cut off before a token or at the end of a text is a gap. Inside a comment, it is one with
the semicolon that started the comment. -/
theorem splitTrivia_gap_before (split : splitTrivia inComment text = (trivia, after)) :
    Gap (if inComment then ';' :: trivia else trivia) after := by
  fun_induction splitTrivia inComment text generalizing trivia after with
  | case1 inComment =>
    cases split
    cases inComment with
    | false => exact .nil
    | true =>
      change Gap (';' :: ([] ++ [])) []
      exact .comment (List.forall_mem_nil _) (by simp) .nil
  | case2 c rest trivia' after' cut ih =>
    cases split
    have others := ih cut
    cases goesOn : breaksLine c with
    | false => exact .inComment goesOn (by simpa [goesOn] using others)
    | true => exact .endComment goesOn (by simpa [goesOn] using others)
  | case3 inComment c rest outside spacing trivia' after' cut ih =>
    cases split
    rw [if_neg outside]
    exact .spacing spacing (ih cut)
  | case4 inComment rest outside trivia' after' cut spacing ih =>
    cases split
    rw [if_neg outside]
    exact ih cut
  | case5 inComment c rest outside =>
    cases split
    rw [if_neg outside]
    exact .nil

/-- What follows a gap is neither spacing nor a comment. -/
theorem splitTrivia_after (split : splitTrivia inComment text = (trivia, c :: rest)) :
    isSpacing c = false ∧ c ≠ ';' := by
  fun_induction splitTrivia inComment text generalizing trivia with
  | case1 => cases split
  | case2 d others trivia' after' cut ih =>
    cases split
    exact ih cut
  | case3 inComment d others outside spacing trivia' after' cut ih =>
    cases split
    exact ih cut
  | case4 inComment others outside trivia' after' cut spacing ih =>
    cases split
    exact ih cut
  | case5 inComment d others outside spacing code =>
    cases split
    exact ⟨Bool.eq_false_iff.2 spacing, code⟩

/-- The spans before, between and behind the tokens of a text that ends at an offset. -/
def gaps (start : Nat) (tokens : List Token) (stop : Nat) : List Span :=
  match tokens with
  | [] => [⟨start, stop⟩]
  | token :: tokens => ⟨start, token.span.start⟩ :: gaps token.span.stop tokens stop

/-- All characters of a text that are not part of a token make up gaps. -/
theorem tokensFrom_gaps (cut : tokensFrom offset text = .ok tokens) :
    ∀ span ∈ gaps offset tokens (offset + byteLength text),
      ∃ before gap after, Slice offset text span before gap after ∧ Gap gap after := by
  rw [tokensFrom_eq_ok_iff] at cut
  induction cut with
  | @nil text trivia offset split =>
    have whole := splitTrivia_append false text
    rw [split, List.append_nil] at whole
    intro span member
    rw [List.mem_singleton.1 member]
    exact ⟨[], text, [], ⟨by simp, rfl, rfl⟩, whole ▸ splitTrivia_gap_before split⟩
  | @token text trivia c rest kind offset others span split isKind start stop later ih =>
    have ends := stop_add_byteLength_after split start
    rw [← stop] at ends
    rw [gaps, List.forall_mem_cons]
    refine ⟨⟨[], trivia, c :: rest, ⟨?_, rfl, start⟩, splitTrivia_gap_before split⟩, ?_⟩
    · rw [← splitTrivia_append false text, split]
      rfl
    · intro gap member
      rw [← ends] at member
      obtain ⟨before, between, after, found, isGap⟩ := ih gap member
      rw [stop] at found
      exact ⟨_, between, after, found.behind_lexeme split start, isGap⟩

/-! ### Tokens by themselves -/

/-- A lexeme stays what it is if the end of the text after it is left out. -/
theorem lexeme_shorter (after : (lexeme c rest).after = left ++ gone) :
    ∃ inside, (lexeme c rest).text = c :: inside ∧
      lexeme c (inside ++ left) = ⟨(lexeme c rest).kind, c :: inside, left⟩ := by
  have whole := lexeme_append c rest
  have some := lexeme_text_ne_nil c rest
  cases found : lexeme c rest with
  | mk kind text after' =>
  rw [found] at after whole some
  obtain rfl : after' = left ++ gone := after
  obtain ⟨none, -⟩ | ⟨inside, rfl, -⟩ := List.append_eq_cons_iff.1 whole
  · exact (some none).elim
  · exact ⟨inside, rfl, lexeme_take found⟩

/-- The characters of a token are cut into this token and nothing else. -/
theorem tokensFrom_lexeme (split : splitTrivia false text = (trivia, c :: rest))
    (isKind : (lexeme c rest).kind = .ok kind) (offset : Nat) :
    tokensFrom offset (lexeme c rest).text =
      .ok [⟨kind, ⟨offset, offset + byteLength (lexeme c rest).text⟩⟩] := by
  obtain ⟨spacing, code⟩ := splitTrivia_after split
  obtain ⟨inside, text, alone⟩ := lexeme_shorter (List.nil_append (lexeme c rest).after).symm
  rw [List.append_nil, isKind] at alone
  rw [text, tokensFrom_token (splitTrivia_start spacing code inside) (congrArg Lexeme.kind alone),
    alone, tokensFrom_nil rfl]
  rfl

/-- Every token of a text has characters in it, and these alone make the token. -/
theorem tokensFrom_slices (cut : tokensFrom offset text = .ok tokens) :
    ∀ token ∈ tokens, ∃ before slice after, Slice offset text token.span before slice after ∧
      tokensFrom 0 slice = .ok [⟨token.kind, ⟨0, byteLength slice⟩⟩] := by
  rw [tokensFrom_eq_ok_iff] at cut
  induction cut with
  | nil => simp
  | @token text trivia c rest kind offset others span split isKind start stop later ih =>
    have alone := tokensFrom_lexeme split isKind 0
    rw [Nat.zero_add] at alone
    refine List.forall_mem_cons.2 ⟨⟨trivia, _, _, ⟨text_of_split split, start, stop⟩, alone⟩, ?_⟩
    intro token member
    obtain ⟨before, slice, after, found, alone⟩ := ih token member
    rw [stop] at found
    exact ⟨_, slice, after, found.behind_lexeme split start, alone⟩

/-! ### Literals at fault -/

/-- The characters inside a literal: any but quotes and backslashes, and known escapes. -/
inductive Inside : List Char → Prop where
  | nil : Inside []
  | plain (quote : c ≠ '\x22') (backslash : c ≠ '\\') (rest : Inside text) : Inside (c :: text)
  | escape (known : IsEscape c) (rest : Inside text) : Inside ('\\' :: c :: text)

/-- The faults of the text behind an opening quote. Before any closing quote, a backslash stands before
a character with which it makes no escape; or there is no closing quote. -/
inductive MisSpelled : List Char → LexicalFault → Prop where
  | unknown (inside : Inside text) (unknown : ¬ IsEscape c) :
      MisSpelled (text ++ '\\' :: c :: after) (.unknownEscape c)
  | endless (inside : Inside text) (ends : tail = [] ∨ tail = ['\\']) :
      MisSpelled (text ++ tail) .unterminatedString

theorem MisSpelled.plain (quote : c ≠ '\x22') (backslash : c ≠ '\\')
    (faulty : MisSpelled rest fault) : MisSpelled (c :: rest) fault := by
  cases faulty with
  | unknown inside unknown => exact .unknown (.plain quote backslash inside) unknown
  | endless inside ends => exact .endless (.plain quote backslash inside) ends

theorem MisSpelled.escape (known : IsEscape c) (faulty : MisSpelled rest fault) :
    MisSpelled ('\\' :: c :: rest) fault := by
  cases faulty with
  | unknown inside unknown => exact .unknown (.escape known inside) unknown
  | endless inside ends => exact .endless (.escape known inside) ends

/-- A literal that cannot be decoded has the fault that is met first. -/
theorem misSpelled_of_decodeLiteral
    (failed : decodeLiteral (splitLiteral rest).1 = .error fault) : MisSpelled rest fault := by
  fun_induction splitLiteral rest with
  | case1 =>
    cases failed
    exact .endless .nil (.inl rfl)
  | case2 rest => cases failed
  | case3 =>
    cases failed
    exact .endless .nil (.inr rfl)
  | case4 c rest inside after cut ih =>
    rw [cut] at ih
    by_cases known : IsEscape c
    · obtain ⟨d, -, mapped⟩ := decodeLiteral_known known
      rw [mapped] at failed
      exact (ih (error_of_map_eq_error failed)).escape known
    · rw [decodeLiteral_unknown known] at failed
      cases failed
      exact .unknown .nil known
  | case5 c rest quote lone escape inside after cut ih =>
    rw [cut] at ih
    have backslash := ne_backslash_of_split lone escape
    rw [decodeLiteral_ordinary quote backslash] at failed
    exact (ih (error_of_map_eq_error failed)).plain quote backslash

/-- A lexeme starts with every character that is neither spacing nor starts a comment. -/
theorem lexeme_start_of_code (text : isSpacing c = false) (code : c ≠ ';') :
    (∃ kind, TokenKind.ofMark? c = some kind) ∨ c = '~' ∨ c = '\x22' ∨ startsAtom c = true := by
  fun_cases TokenKind.ofMark? c with
  | case7 closes opens quote back at_ caret =>
    by_cases tilde : c = '~'
    · exact .inr (.inl tilde)
    by_cases double : c = '\x22'
    · exact .inr (.inr (.inl double))
    have continues : continuesAtom c = true :=
      continuesAtom_iff.2 ⟨text, opens, closes, quote, double, back, code⟩
    exact .inr (.inr (.inr (startsAtom_iff.2 ⟨continues, tilde, caret, at_⟩)))
  | _ => exact .inl ⟨_, rfl⟩

/-- The only lexemes that are at fault are literals. -/
theorem lexeme_error (text : isSpacing c = false) (code : c ≠ ';')
    (failed : (lexeme c rest).kind = .error fault) : c = '\x22' ∧ MisSpelled rest fault := by
  rcases lexeme_start_of_code text code with ⟨kind, mark⟩ | rfl | rfl | starts
  · rw [lexeme_mark mark] at failed
    cases failed
  · by_cases splice : ∃ others, rest = '@' :: others
    · obtain ⟨others, rfl⟩ := splice
      cases failed
    · rw [lexeme_tilde fun others same => splice ⟨others, same⟩] at failed
      cases failed
  · rw [lexeme_quote] at failed
    exact ⟨rfl, misSpelled_of_decodeLiteral (error_of_map_eq_error failed)⟩
  · rw [lexeme_atom starts] at failed
    cases failed

/-- What follows a token has no part in the trivia before it. -/
theorem splitTrivia_rest (split : splitTrivia inComment text = (trivia, c :: rest))
    (other : List Char) : splitTrivia inComment (trivia ++ c :: other) = (trivia, c :: other) := by
  fun_induction splitTrivia inComment text generalizing trivia with
  | case1 => cases split
  | case2 d others trivia' after' cut ih =>
    cases split
    rw [List.cons_append, splitTrivia, if_pos rfl, ih cut]
  | case3 inComment d others outside spacing trivia' after' cut ih =>
    cases split
    rw [List.cons_append, splitTrivia, if_neg outside, if_pos spacing, ih cut]
  | case4 inComment others outside trivia' after' cut spacing ih =>
    cases split
    rw [List.cons_append, splitTrivia, if_neg outside, if_neg spacing, if_pos rfl, ih cut]
  | case5 inComment d others outside spacing code =>
    cases split
    rw [List.nil_append, splitTrivia, if_neg outside, if_neg spacing, if_neg code]

/-- The trivia before a token are trivia without it. -/
theorem splitTrivia_trivia (split : splitTrivia inComment text = (trivia, c :: rest)) :
    splitTrivia inComment trivia = (trivia, []) := by
  rcases splitTrivia_cut inComment trivia (c :: rest) with
    ⟨all, -⟩ | ⟨before, d, inside, -, longer⟩
  · exact all
  · rw [splitTrivia_rest split] at longer
    obtain ⟨-, -, same⟩ : trivia = before ∧ c = d ∧ rest = inside ++ c :: rest := by
      simpa using longer
    have shorter := congrArg List.length same
    rw [List.length_append, List.length_cons] at shorter
    omega

/-- The text before the fault of a text can be cut, and a literal at fault follows it. -/
theorem tokensFrom_error (failed : tokensFrom offset text = .error error) :
    ∃ before rest, text = before ++ '\x22' :: rest ∧
      error.span.start = offset + byteLength before ∧
      (∃ tokens, tokensFrom offset before = .ok tokens) ∧ MisSpelled rest error.fault := by
  fun_induction tokensFrom offset text with
  | case1 => cases failed
  | case2 offset text trivia c rest split found start span fault isKind =>
    cases failed
    obtain ⟨spacing, code⟩ := splitTrivia_after split
    obtain ⟨rfl, faulty⟩ := lexeme_error spacing code isKind
    refine ⟨trivia, rest, ?_, rfl, ⟨[], tokensFrom_nil (splitTrivia_trivia split)⟩, faulty⟩
    rw [← splitTrivia_append false text, split]
  | case3 offset text trivia c rest split found start span kind isKind ih =>
    obtain ⟨before, faulty, same, place, ⟨tokens, cut⟩, misSpelled⟩ :=
      ih (error_of_map_eq_error failed)
    obtain ⟨inside, spelled, taken⟩ := lexeme_shorter same
    rw [isKind] at taken
    refine ⟨trivia ++ c :: (inside ++ before), faulty, ?_, ?_, ⟨⟨kind, span⟩ :: tokens, ?_⟩,
      misSpelled⟩
    · rw [text_of_split split, same, spelled]
      simp only [List.cons_append, List.append_assoc]
    · rw [place, byteLength_append, ← List.cons_append, ← spelled, byteLength_append]
      simp only [span, start, found, Nat.add_assoc]
    · rw [tokensFrom_token (splitTrivia_rest split _) (congrArg Lexeme.kind taken), taken,
        ← spelled, cut]
      rfl

/-- The span of a fault holds the characters of the lexeme that is at fault. -/
theorem tokensFrom_error_slice (failed : tokensFrom offset text = .error error) :
    ∃ before slice after, Slice offset text error.span before slice after ∧ slice ≠ [] := by
  fun_induction tokensFrom offset text with
  | case1 => cases failed
  | case2 offset text trivia c rest split found start span fault isKind =>
    cases failed
    exact ⟨trivia, found.text, found.after, ⟨text_of_split split, rfl, rfl⟩,
      lexeme_text_ne_nil c rest⟩
  | case3 offset text trivia c rest split found start span kind isKind ih =>
    obtain ⟨before, slice, after, same, some⟩ := ih (error_of_map_eq_error failed)
    exact ⟨_, slice, after, same.behind_lexeme split rfl, some⟩

theorem MisSpelled.ne_invalidToken (faulty : MisSpelled rest fault) : fault ≠ .invalidToken := by
  cases faulty <;> exact LexicalFault.noConfusion

/-! ### Whole texts -/

/-- How tokens lie in a text: in their order, each made of characters that spell it by themselves, and
with gaps before, between and behind them. -/
structure LaidOut (text : String) (tokens : List Token) : Prop where
  inOrder : InOrder 0 tokens (byteLength text.toList)
  alone : ∀ token ∈ tokens, ∃ before slice after, Slice 0 text.toList token.span before slice after ∧
    tokenize (String.ofList slice) = .ok [⟨token.kind, ⟨0, byteLength slice⟩⟩]
  between : ∀ span ∈ gaps 0 tokens (byteLength text.toList),
    ∃ before gap after, Slice 0 text.toList span before gap after ∧ Gap gap after

/-- How an error points to the first literal at fault: by the place of its opening quote. The text
before the quote can be cut into tokens. -/
structure Blames (error : LexicalError) (text : String) : Prop where
  valid : error.fault ≠ .invalidToken
  quote : ∃ before rest, text.toList = before ++ '\x22' :: rest ∧
    error.span.start = byteLength before ∧
    (∃ tokens, tokenize (String.ofList before) = .ok tokens) ∧ MisSpelled rest error.fault

/-- Tokens account for all characters of the text they are cut from, and a text that cannot be cut has
a literal at fault. -/
theorem tokens_account_for_text (text : String) :
    (∀ tokens, tokenize text = .ok tokens → LaidOut text tokens) ∧
      ∀ error, tokenize text = .error error → Blames error text := by
  constructor
  · intro tokens cut
    have inOrder := tokensFrom_inOrder cut
    have between := tokensFrom_gaps cut
    rw [Nat.zero_add] at inOrder between
    refine ⟨inOrder, fun token member => ?_, between⟩
    obtain ⟨before, slice, after, found, alone⟩ := tokensFrom_slices cut token member
    exact ⟨before, slice, after, found, by rwa [tokenize, String.toList_ofList]⟩
  · intro error failed
    obtain ⟨before, rest, same, place, ⟨tokens, cut⟩, faulty⟩ := tokensFrom_error failed
    rw [Nat.zero_add] at place
    exact ⟨faulty.ne_invalidToken, before, rest, same, place,
      ⟨tokens, by rwa [tokenize, String.toList_ofList]⟩, faulty⟩

/-- A comment that a carriage return ends, wide characters inside an atom and a literal, and a literal
with a bad escape behind another literal. -/
theorem tokens_account_for_text_escapes :
    LaidOut "(;)\rλ~@ \"é\\n\")," [⟨.opening .round, ⟨0, 1⟩⟩, ⟨.atom "λ~@", ⟨4, 8⟩⟩,
        ⟨.str "é\n", ⟨9, 15⟩⟩, ⟨.closing .round, ⟨15, 16⟩⟩] ∧
      Blames ⟨.unknownEscape 't', ⟨3, 11⟩⟩ "\"\" \"a\\\"\\tb\"" := by
  refine ⟨(tokens_account_for_text _).1 _ ?_, (tokens_account_for_text _).2 _ ?_⟩
  · cbv
  · cbv

end MiniLisp
