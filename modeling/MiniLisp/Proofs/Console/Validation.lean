import Mathlib
import MiniLisp.Proofs.Reader.Nesting
import MiniLisp.Proofs.Token.Cuts

/-! The validator and the tokens. The validator goes through a text character by character, knows
strings and comments by its mode only, and never makes tokens. Its verdict is nevertheless that of a
stack of brackets over the tokens, as long as a carriage return stands before a line feed only: a
comment ends at either for the tokens, and at a line feed for the validator. A string without its end
is never found to be complete. -/

namespace MiniLisp

/-- Texts in which every carriage return is followed by a line feed at once. -/
def PairedReturns (text : List Char) : Prop :=
  ∀ before after, text = before ++ '\r' :: after → ∃ rest, after = '\n' :: rest

theorem PairedReturns.of_append (paired : PairedReturns (first ++ second)) :
    PairedReturns second := by
  rintro before after rfl
  exact paired (first ++ before) after (by rw [List.append_assoc])

theorem PairedReturns.tail (paired : PairedReturns (c :: rest)) : PairedReturns rest :=
  @PairedReturns.of_append [c] rest paired

theorem pairedReturns_nil : PairedReturns [] := by
  intro before after same
  cases before <;> cases same

theorem pairedReturns_cons :
    PairedReturns (c :: text) ↔ (c = '\r' → text.head? = some '\n') ∧ PairedReturns text := by
  constructor
  · intro paired
    refine ⟨fun same => ?_, paired.tail⟩
    obtain ⟨rest, rfl⟩ := paired [] text (congrArg (· :: text) same)
    rfl
  · rintro ⟨feed, paired⟩ before after same
    cases before with
    | nil =>
      cases same
      exact List.head?_eq_some_iff.1 (feed rfl)
    | cons d before =>
      cases same
      exact paired before after rfl

instance decidablePairedReturns : (text : List Char) → Decidable (PairedReturns text)
  | [] => isTrue pairedReturns_nil
  | _ :: text =>
    have := decidablePairedReturns text
    decidable_of_iff _ pairedReturns_cons.symm

/-- Texts in which every carriage return is followed by a line feed at once or ends the text. These
are the texts that others with paired returns start with. -/
def PairedOrLastReturns (text : List Char) : Prop :=
  ∀ before after, text = before ++ '\r' :: after → after = [] ∨ ∃ rest, after = '\n' :: rest

theorem PairedReturns.cut (paired : PairedReturns (first ++ second)) :
    PairedOrLastReturns first := by
  rintro before after rfl
  obtain ⟨rest, same⟩ := paired before (after ++ second) (by simp)
  cases after with
  | nil => exact .inl rfl
  | cons c after =>
    cases same
    exact .inr ⟨after, rfl⟩

theorem PairedReturns.orLast (paired : PairedReturns text) : PairedOrLastReturns text :=
  fun before after same => .inr (paired before after same)

theorem PairedOrLastReturns.of_append (paired : PairedOrLastReturns (first ++ second)) :
    PairedOrLastReturns second := by
  rintro before after rfl
  exact paired (first ++ before) after (by rw [List.append_assoc])

theorem PairedOrLastReturns.tail (paired : PairedOrLastReturns (c :: rest)) :
    PairedOrLastReturns rest :=
  @PairedOrLastReturns.of_append [c] rest paired

/-! ### What is rejected stays rejected -/

theorem validateFrom_append_of_unmatched
    (rejected : validateFrom offset mode opened before = .unmatched bracket place)
    (after : List Char) :
    validateFrom offset mode opened (before ++ after) = .unmatched bracket place := by
  fun_induction validateFrom offset mode opened before
  case case1 => cases rejected
  case case2 => cases rejected
  case case5 => simp_all [validateFrom]
  case case6 => simp_all [validateFrom]
  -- Everywhere else the validator goes on with the rest.
  all_goals
    rename_i ih
    simp only [List.cons_append, validateFrom, ↓reduceIte, *]
    exact ih rejected

/-! ### Characters that change nothing -/

/-- The characters of code that open, close and start nothing. -/
structure IsPlain (c : Char) : Prop where
  opens : Bracket.ofOpen? c = none
  closes : Bracket.ofClose? c = none
  quote : c ≠ '\x22'
  comment : c ≠ ';'

theorem isPlain_of_isSpacing (spacing : isSpacing c = true) : IsPlain c := by
  have other : ∀ d, isSpacing d = false → c ≠ d := by
    rintro d apart rfl
    rw [apart] at spacing
    cases spacing
  refine ⟨?_, ?_, other _ rfl, other _ rfl⟩
  · cases found : Bracket.ofOpen? c with
    | none => rfl
    | some bracket =>
      rw [Bracket.ofOpen?_eq_some] at found
      cases bracket <;> exact (other _ rfl found).elim
  · cases found : Bracket.ofClose? c with
    | none => rfl
    | some bracket =>
      rw [Bracket.ofClose?_eq_some] at found
      cases bracket <;> exact (other _ rfl found).elim

theorem isPlain_of_continuesAtom (continues : continuesAtom c = true) : IsPlain c := by
  obtain ⟨-, opens, closes, -, quote, -, comment⟩ := continuesAtom_iff.1 continues
  exact ⟨opens, closes, quote, comment⟩

theorem validateFrom_plain (plain : IsPlain c) (rest : List Char) :
    validateFrom offset .code opened (c :: rest) =
      validateFrom (offset + c.utf8Size) .code opened rest := by
  simp [validateFrom, Mode.after, plain.opens, plain.closes, plain.quote, plain.comment]

theorem validateFrom_plain_append (plain : ∀ c ∈ text, IsPlain c) (rest : List Char) :
    validateFrom offset .code opened (text ++ rest) =
      validateFrom (offset + byteLength text) .code opened rest := by
  induction text generalizing offset with
  | nil => rfl
  | cons c text ih =>
    have others := fun d member => plain d (List.mem_cons_of_mem c member)
    rw [List.cons_append, validateFrom_plain (plain c List.mem_cons_self), ih others, byteLength,
      Nat.add_assoc]

/-! ### Comments -/

/-- Where the validator stands between tokens. -/
def triviaMode (inComment : Bool) : Mode := if inComment then .comment else .code

/-- In a comment a carriage return is followed by the line feed that ends the comment, so it makes no
difference that the validator takes it for a part of the comment. -/
theorem validateFrom_comment (paired : PairedOrLastReturns (c :: rest)) :
    validateFrom offset .comment opened (c :: rest) =
      validateFrom (offset + c.utf8Size) (triviaMode (!breaksLine c)) opened rest := by
  by_cases feed : c = '\n'
  · subst feed
    rfl
  by_cases return_ : c = '\r'
  · subst return_
    rcases paired [] rest rfl with rfl | ⟨after, rfl⟩ <;> rfl
  simp [validateFrom, Mode.after, triviaMode, breaksLine, feed, return_]

/-- Trivia before a token are passed over. -/
theorem validateFrom_trivia (paired : PairedOrLastReturns text) (offset : Nat) (opened : List Bracket)
    (inComment : Bool) :
    validateFrom offset (triviaMode inComment) opened text =
      validateFrom (offset + byteLength (splitTrivia inComment text).1) .code opened
        (splitTrivia inComment text).2 := by
  fun_induction splitTrivia inComment text generalizing offset with
  | case1 inComment => cases inComment <;> rfl
  | case2 c rest trivia after cut ih =>
    have others := ih paired.tail (offset + c.utf8Size)
    rw [cut] at others
    rw [triviaMode, if_pos rfl, validateFrom_comment paired, others, byteLength, Nat.add_assoc]
  | case3 inComment c rest outside spacing trivia after cut ih =>
    have others := ih paired.tail (offset + c.utf8Size)
    rw [cut] at others
    rw [triviaMode, if_neg outside, validateFrom_plain (isPlain_of_isSpacing spacing), byteLength,
      ← Nat.add_assoc]
    exact others
  | case4 inComment rest outside trivia after cut _ ih =>
    have others := ih paired.tail (offset + ';'.utf8Size)
    rw [cut] at others
    rw [triviaMode, if_neg outside, byteLength, ← Nat.add_assoc]
    exact others
  | case5 inComment c rest outside spacing code =>
    rw [triviaMode, if_neg outside]
    rfl

/-! ### Strings -/

theorem validateFrom_escape (c : Char) (rest : List Char) :
    validateFrom offset .string opened ('\\' :: c :: rest) =
      validateFrom (offset + '\\'.utf8Size + c.utf8Size) .string opened rest := by
  simp [validateFrom, Mode.after]

theorem validateFrom_ordinary (quote : c ≠ '\x22') (backslash : c ≠ '\\') (rest : List Char) :
    validateFrom offset .string opened (c :: rest) =
      validateFrom (offset + c.utf8Size) .string opened rest := by
  simp [validateFrom, Mode.after, quote, backslash]

/-- A string that can be decoded has its end, and what follows is code again. -/
theorem validateFrom_literal (decoded : decodeLiteral (splitLiteral rest).1 = .ok text) :
    validateFrom offset .string opened rest =
      validateFrom (offset + byteLength (splitLiteral rest).1) .code opened
        (splitLiteral rest).2 := by
  fun_induction splitLiteral rest generalizing offset text with
  | case1 => cases decoded
  | case2 rest => rfl
  | case3 => cases decoded
  | case4 c rest inside after cut ih =>
    rw [cut] at ih
    rcases decodeLiteral_escape c with failed | ⟨d, mapped⟩
    · rw [failed] at decoded
      cases decoded
    · rw [mapped] at decoded
      obtain ⟨text', decoded, -⟩ := exists_of_map_eq_ok decoded
      rw [validateFrom_escape, ih decoded]
      simp only [byteLength, Nat.add_assoc]
  | case5 c rest quote lone escape inside after cut ih =>
    rw [cut] at ih
    have backslash := ne_backslash_of_split lone escape
    rw [decodeLiteral_ordinary quote backslash] at decoded
    obtain ⟨text', decoded, -⟩ := exists_of_map_eq_ok decoded
    rw [validateFrom_ordinary quote backslash, ih decoded]
    simp only [byteLength, Nat.add_assoc]

/-- A string without its end goes on to the end of the text, where it is still open. -/
theorem validateFrom_unterminated
    (failed : decodeLiteral (splitLiteral rest).1 = .error .unterminatedString) :
    validateFrom offset .string opened rest = .incomplete := by
  fun_induction splitLiteral rest generalizing offset with
  | case1 => rfl
  | case2 rest => cases failed
  | case3 => rfl
  | case4 c rest inside after cut ih =>
    rw [cut] at ih
    rcases decodeLiteral_escape c with unknown | ⟨d, mapped⟩
    · rw [unknown] at failed
      cases failed
    · rw [mapped] at failed
      rw [validateFrom_escape, ih (error_of_map_eq_error failed)]
  | case5 c rest quote lone escape inside after cut ih =>
    rw [cut] at ih
    have backslash := ne_backslash_of_split lone escape
    rw [decodeLiteral_ordinary quote backslash] at failed
    rw [validateFrom_ordinary quote backslash, ih (error_of_map_eq_error failed)]

/-! ### Lexemes -/

/-- A single character that is a token is a bracket, or nothing to the validator. -/
theorem ofMark?_cases (mark : TokenKind.ofMark? c = some kind) :
    (∃ bracket, kind = .opening bracket ∧ c = bracket.openChar) ∨
      (∃ bracket, kind = .closing bracket ∧ c = bracket.closeChar) ∨
        kind.IsFlat ∧ IsPlain c := by
  unfold TokenKind.ofMark? at mark
  split at mark
  · next bracket opens =>
    cases mark
    exact .inl ⟨bracket, rfl, Bracket.ofOpen?_eq_some.1 opens⟩
  · next bracket _ closes =>
    cases mark
    exact .inr (.inl ⟨bracket, rfl, Bracket.ofClose?_eq_some.1 closes⟩)
  · refine .inr (.inr ?_)
    repeat' split at mark
    all_goals cases mark
    all_goals next same => subst same; exact ⟨trivial, rfl, rfl, by decide, by decide⟩

/-- Apart from strings, the longer lexemes are made of characters that are nothing to the validator. -/
theorem lexeme_plain (unmarked : TokenKind.ofMark? c = none) (quote : c ≠ '\x22')
    (found : (lexeme c rest).kind = .ok kind) :
    kind.IsFlat ∧ ∀ d ∈ (lexeme c rest).text, IsPlain d := by
  by_cases tilde : c = '~'
  · subst tilde
    have plain : IsPlain '~' := ⟨rfl, rfl, by decide, by decide⟩
    have plain' : IsPlain '@' := ⟨rfl, rfl, by decide, by decide⟩
    simp only [lexeme, unmarked, ↓reduceIte] at found ⊢
    split at found
    · cases found
      exact ⟨trivial, by simp [plain, plain']⟩
    · cases found
      exact ⟨trivial, by simp [plain]⟩
  by_cases starts : startsAtom c = true
  · simp only [lexeme, unmarked, tilde, quote, starts, ↓reduceIte] at found ⊢
    cases found
    refine ⟨trivial, fun d member => ?_⟩
    rcases List.mem_cons.1 member with rfl | member
    · exact isPlain_of_continuesAtom (startsAtom_iff.1 starts).1
    · exact isPlain_of_continuesAtom (List.mem_takeWhile_imp member)
  · simp only [lexeme, unmarked, tilde, quote, starts, ↓reduceIte, Bool.false_eq_true] at found
    cases found

/-- The validator passes over the characters of a string. -/
theorem validateFrom_lexeme_literal (found : (lexeme '\x22' rest).kind = .ok kind) :
    kind.IsFlat ∧ ∀ offset opened, validateFrom offset .code opened ('\x22' :: rest) =
      validateFrom (offset + byteLength (lexeme '\x22' rest).text) .code opened
        (lexeme '\x22' rest).after := by
  obtain ⟨text, decoded, same⟩ := exists_of_map_eq_ok found
  subst same
  refine ⟨trivial, fun offset opened => ?_⟩
  change validateFrom (offset + '\x22'.utf8Size) .string opened rest = _
  rw [validateFrom_literal decoded, Nat.add_assoc]
  rfl

/-- A lexeme that lacks its end is a string, and nothing ends it up to the end of the text. -/
theorem lexeme_unterminated (found : (lexeme c rest).kind = .error .unterminatedString) :
    c = '\x22' ∧ decodeLiteral (splitLiteral rest).1 = .error .unterminatedString := by
  unfold lexeme at found
  split at found
  · cases found
  split at found
  · split at found <;> cases found
  split at found
  · next quote => exact ⟨quote, error_of_map_eq_error found⟩
  · split at found <;> cases found

/-- A token at the start of a text is a bracket, or the validator passes over it. -/
theorem lexeme_cases (found : (lexeme c rest).kind = .ok kind) :
    (∃ bracket, kind = .opening bracket ∧ c = bracket.openChar) ∨
      (∃ bracket, kind = .closing bracket ∧ c = bracket.closeChar) ∨
        kind.IsFlat ∧ ∀ offset opened, validateFrom offset .code opened (c :: rest) =
          validateFrom (offset + byteLength (lexeme c rest).text) .code opened
            (lexeme c rest).after := by
  cases mark : TokenKind.ofMark? c with
  | some kind' =>
    have single : lexeme c rest = ⟨.ok kind', [c], rest⟩ := by simp only [lexeme, mark]
    rw [single] at found ⊢
    cases found
    rcases ofMark?_cases mark with opens | closes | ⟨flat, plain⟩
    · exact .inl opens
    · exact .inr (.inl closes)
    · exact .inr (.inr ⟨flat, fun offset opened => validateFrom_plain plain rest⟩)
  | none =>
    refine .inr (.inr ?_)
    by_cases quote : c = '\x22'
    · subst quote
      exact validateFrom_lexeme_literal found
    · obtain ⟨flat, plain⟩ := lexeme_plain mark quote found
      refine ⟨flat, fun offset opened => ?_⟩
      rw [← validateFrom_plain_append plain, lexeme_append]

/-- One token of a text is one step of the run of the stack. -/
theorem validateFrom_token (paired : PairedOrLastReturns text)
    (cut : splitTrivia false text = (trivia, c :: rest)) (found : (lexeme c rest).kind = .ok kind)
    (span : Span) (start : span.start = offset + byteLength trivia)
    (stop : span.stop = span.start + byteLength (lexeme c rest).text) :
    validateFrom offset .code opened text =
      match (⟨kind, span⟩ : Token).nest opened with
      | .error verdict => verdict
      | .ok opened => validateFrom span.stop .code opened (lexeme c rest).after := by
  have begun := validateFrom_trivia paired offset opened false
  rw [cut, triviaMode, if_neg Bool.false_ne_true] at begun
  dsimp only at begun
  rw [begun, ← start]
  rcases lexeme_cases found with ⟨bracket, rfl, rfl⟩ | ⟨bracket, rfl, rfl⟩ | ⟨flat, passed⟩
  · rw [stop]
    cases bracket <;> rfl
  · rw [stop]
    cases opened with
    | nil => cases bracket <;> rfl
    | cons innermost outer =>
      by_cases same : innermost = bracket
      · subst same
        cases innermost <;> rfl
      · simp only [Token.nest, same, ↓reduceIte]
        cases bracket <;> simp [validateFrom, Bracket.closeChar, Bracket.ofOpen?, Bracket.ofClose?, same]
  · rw [Token.nest_flat flat, passed, stop]

/-! ### Texts -/

theorem PairedOrLastReturns.after (paired : PairedOrLastReturns text)
    (cut : splitTrivia false text = (trivia, c :: rest)) :
    PairedOrLastReturns (lexeme c rest).after := by
  have whole := splitTrivia_append false text
  rw [cut, ← lexeme_append c rest, ← List.append_assoc] at whole
  rw [← whole] at paired
  exact paired.of_append

/-- The validator runs the stack of brackets over the tokens of the text. -/
theorem validateFrom_of_tokens (paired : PairedOrLastReturns text)
    (cut : tokensFrom offset text = .ok tokens) :
    validateFrom offset .code opened text = nestingVerdict opened tokens := by
  rw [tokensFrom_eq_ok_iff] at cut
  induction cut generalizing opened with
  | @nil text trivia offset split =>
    have passed := validateFrom_trivia paired offset opened false
    rw [split] at passed
    refine passed.trans ?_
    cases opened <;> rfl
  | @token text trivia c rest kind offset others span split isKind start stop later ih =>
    rw [validateFrom_token paired split isKind span start stop, nestingVerdict]
    cases Token.nest opened ⟨kind, span⟩ with
    | error verdict => rfl
    | ok opened => exact ih (paired.after split)

/-- A text that ends in a string is never found to be complete. -/
theorem validateFrom_of_unterminated (paired : PairedOrLastReturns text)
    (failed : tokensFrom offset text = .error ⟨.unterminatedString, place⟩) :
    validateFrom offset .code opened text ≠ .valid := by
  fun_induction tokensFrom offset text generalizing opened with
  | case1 => cases failed
  | case2 =>
    rename_i offset text trivia c rest split found start span fault isFault
    have same : fault = .unterminatedString := congrArg LexicalError.fault (Except.error.inj failed)
    rw [same] at isFault
    obtain ⟨rfl, endless⟩ := lexeme_unterminated isFault
    have passed := validateFrom_trivia paired offset opened false
    rw [split] at passed
    have stays : validateFrom offset .code opened text = .incomplete :=
      passed.trans (validateFrom_unterminated endless)
    simp [stays]
  | case3 =>
    rename_i offset text trivia c rest split found start span kind isKind ih
    rw [validateFrom_token paired split isKind span rfl rfl]
    cases nested : Token.nest opened ⟨kind, span⟩ with
    | error verdict =>
      obtain ⟨bracket, same⟩ := Token.nest_error nested
      simp [same]
    | ok opened => exact ih (paired.after split) (error_of_map_eq_error failed)

section
variable {text : String} (paired : PairedReturns text.toList)
include paired

/-- The verdict on a text is that of a stack of brackets over its tokens. -/
theorem validate_of_tokens (cut : tokenize text = .ok tokens) :
    validate text.toList = nestingVerdict [] tokens :=
  validateFrom_of_tokens paired.orLast cut

/-- A text that ends in a string is unfinished, unless a bracket does not match. -/
theorem validate_of_endless (failed : tokenize text = .error ⟨.unterminatedString, place⟩) :
    validate text.toList = .incomplete ∨
      ∃ bracket offset, validate text.toList = .unmatched bracket offset := by
  have incomplete : validate text.toList ≠ .valid := validateFrom_of_unterminated paired.orLast failed
  cases verdict : validate text.toList with
  | valid => exact (incomplete verdict).elim
  | incomplete => exact .inl rfl
  | unmatched bracket offset => exact .inr ⟨bracket, offset, rfl⟩

theorem validate_of_read (read : MiniLisp.read literals text = .ok form) :
    validate text.toList = .valid := by
  rcases read_cases literals text with ⟨_, _, same⟩ | ⟨_, same⟩ | ⟨tokens, cut, same⟩
  · cases same.symm.trans read
  · cases same.symm.trans read
  · rw [validate_of_tokens paired cut, nestingVerdict_of_parse (same.symm.trans read)]

theorem validate_of_empty (empty : MiniLisp.read literals text = .error .empty) :
    validate text.toList = .valid := by
  rcases read_cases literals text with ⟨_, _, same⟩ | ⟨cut, _⟩ | ⟨tokens, _, same⟩
  · cases same.symm.trans empty
  · rw [validate_of_tokens paired cut]
    rfl
  · -- The parser knows of an early end and of faults at tokens, and this is neither.
    rcases parse_error (same.symm.trans empty) with early | blamed
    · exact early.elim
    · exact blamed.elim

theorem validate_of_read_unterminated
    (failed : MiniLisp.read literals text = .error (.unterminated bracket span)) :
    validate text.toList = .incomplete := by
  rcases read_cases literals text with ⟨_, _, same⟩ | ⟨_, same⟩ | ⟨tokens, cut, same⟩
  · cases same.symm.trans failed
  · cases same.symm.trans failed
  · rw [validate_of_tokens paired cut,
      nestingVerdict_of_parse_unterminated (same.symm.trans failed)]

theorem validate_of_read_endless
    (failed : MiniLisp.read literals text = .error (.lexical ⟨.unterminatedString, place⟩)) :
    validate text.toList ≠ .valid := by
  rcases read_cases literals text with ⟨fault, uncut, same⟩ | ⟨_, same⟩ | ⟨tokens, _, same⟩
  · cases same.symm.trans failed
    exact validateFrom_of_unterminated paired.orLast uncut
  · cases same.symm.trans failed
  · rcases parse_error (same.symm.trans failed) with early | blamed
    · exact early.elim
    · exact blamed.elim

end

/-- For a text in which every carriage return is followed by a line feed, the verdict of the validator
is that of a stack of brackets over its tokens, and if a string lacks its end, it is not that the text
is complete. So a text that reads, or holds no form, is complete; one that ends inside a bracket is
incomplete; and one that is complete ends neither inside a bracket nor inside a string. -/
theorem validation_follows_tokens (text : String) (paired : PairedReturns text.toList) :
    (∀ tokens, tokenize text = .ok tokens → validate text.toList = nestingVerdict [] tokens) ∧
      (∀ place, tokenize text = .error ⟨.unterminatedString, place⟩ →
        validate text.toList = .incomplete ∨
          ∃ bracket offset, validate text.toList = .unmatched bracket offset) ∧
      (∀ literals, (∃ form, MiniLisp.read literals text = .ok form) ∨
        MiniLisp.read literals text = .error .empty → validate text.toList = .valid) ∧
      (∀ literals bracket span, MiniLisp.read literals text = .error (.unterminated bracket span) →
        validate text.toList = .incomplete) ∧
      (validate text.toList = .valid → ∀ literals,
        (∀ bracket span, MiniLisp.read literals text ≠ .error (.unterminated bracket span)) ∧
          ∀ place, MiniLisp.read literals text ≠ .error (.lexical ⟨.unterminatedString, place⟩)) := by
  refine ⟨?_, ?_, ?_, ?_, ?_⟩
  · intro tokens cut
    exact validate_of_tokens paired cut
  · intro place failed
    exact validate_of_endless paired failed
  · rintro literals (⟨form, read⟩ | empty)
    · exact validate_of_read paired read
    · exact validate_of_empty paired empty
  · intro literals bracket span failed
    exact validate_of_read_unterminated paired failed
  · intro valid literals
    refine ⟨?_, ?_⟩
    · intro bracket span failed
      rw [validate_of_read_unterminated paired failed] at valid
      cases valid
    · intro place failed
      exact validate_of_read_endless paired failed valid

/-- A bracket in a comment closes nothing, and the comment ends at the line feed. -/
theorem validation_follows_tokens_comment :
    PairedReturns "(;)\r\n".toList ∧
      MiniLisp.read 0 "(;)\r\n" = .error (.unterminated .round ⟨0, 1⟩) ∧
        validate "(;)\r\n".toList = .incomplete := by
  have paired : PairedReturns "(;)\r\n".toList := by decide
  have failed : MiniLisp.read 0 "(;)\r\n" = .error (.unterminated .round ⟨0, 1⟩) := by cbv
  obtain ⟨-, -, -, unterminated, -⟩ := validation_follows_tokens _ paired
  exact ⟨paired, failed, unterminated 0 .round _ failed⟩

end MiniLisp
