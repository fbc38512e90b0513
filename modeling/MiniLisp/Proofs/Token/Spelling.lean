import MiniLisp.Token.Lexer
import Mathlib.Data.List.TakeWhile

/-! Tokens and how a text spells them. A text spells tokens if it is made of their spellings in
order, with trivia anywhere between them, and no token runs on into what follows it. Cutting such a
text into tokens gives exactly these tokens, and every token that is cut from any text has a
spelling. -/

namespace MiniLisp

/-- The texts of atoms: a character that starts an atom, and others that go on with it. -/
def IsAtom (text : List Char) : Prop :=
  ∃ c rest, text = c :: rest ∧ startsAtom c = true ∧ ∀ next ∈ rest, continuesAtom next = true

theorem IsAtom.of_all (starts : startsAtom c = true) (others : rest.all continuesAtom = true) :
    IsAtom (c :: rest) :=
  ⟨c, rest, rfl, starts, List.all_eq_true.1 others⟩

namespace TokenKind

/-- The characters that a text spells a token with. Atoms stand as they are. -/
def spelling : TokenKind → List Char
  | opening bracket => [bracket.openChar]
  | closing bracket => [bracket.closeChar]
  | shorthand mark => mark.spelling
  | caret => ['^']
  | str text => encodeLiteral text.toList
  | atom text => text.toList

/-- The kinds of token that a text can spell: all, if only the text of an atom is one. -/
def IsLexical : TokenKind → Prop
  | atom text => IsAtom text.toList
  | _ => True

/-- Whether a token that is followed by a text ends before it. An atom goes on as far as it can, and
an at sign makes another mark of a tilde. -/
def EndsBefore : TokenKind → List Char → Prop
  | atom _, text => ∀ c rest, text = c :: rest → continuesAtom c = false
  | shorthand .unquote, text => ∀ rest, text ≠ '@' :: rest
  | _, _ => True

end TokenKind

/-- Texts between tokens: spacing, and comments up to the end of their line. -/
inductive Trivia : List Char → Prop where
  | nil : Trivia []
  | spacing (separates : isSpacing c = true) (rest : Trivia gap) : Trivia (c :: gap)
  | comment (inside : ∀ c ∈ text, breaksLine c = false) (ends : breaksLine stop = true)
      (rest : Trivia gap) : Trivia (';' :: (text ++ stop :: gap))

/-- A text, the offset of its first byte, and the tokens that it spells. -/
inductive Spells : Nat → List Token → List Char → Prop where
  | nil : Spells offset [] []
  | gap (trivia : Trivia gap) (rest : Spells (offset + byteLength gap) tokens text) :
      Spells offset tokens (gap ++ text)
  | token (lexical : kind.IsLexical) (ends : kind.EndsBefore text)
      (rest : Spells (offset + byteLength kind.spelling) tokens text) :
      Spells offset (⟨kind, ⟨offset, offset + byteLength kind.spelling⟩⟩ :: tokens)
        (kind.spelling ++ text)

/-! ### Cutting a text into tokens, step by step -/

theorem error_of_map_eq_error {outcome : Except ε α} {f : α → β}
    (mapped : f <$> outcome = .error error) : outcome = .error error := by
  cases outcome with
  | error =>
    cases mapped
    rfl
  | ok => cases mapped

theorem exists_of_map_eq_ok {outcome : Except ε α} {f : α → β}
    (mapped : f <$> outcome = .ok result) : ∃ found, outcome = .ok found ∧ f found = result := by
  cases outcome with
  | error => cases mapped
  | ok found => exact ⟨found, rfl, Except.ok.inj mapped⟩

theorem tokensFrom_nil (cut : splitTrivia false text = (trivia, [])) :
    tokensFrom offset text = .ok [] := by
  rw [tokensFrom]
  split
  · rfl
  · next other => rw [cut] at other; cases other

theorem tokensFrom_cons (cut : splitTrivia false text = (trivia, c :: rest)) :
    tokensFrom offset text =
      match (lexeme c rest).kind with
      | .error fault => .error ⟨fault, ⟨offset + byteLength trivia,
          offset + byteLength trivia + byteLength (lexeme c rest).text⟩⟩
      | .ok kind => (⟨kind, ⟨offset + byteLength trivia,
          offset + byteLength trivia + byteLength (lexeme c rest).text⟩⟩ :: ·) <$>
            tokensFrom (offset + byteLength trivia + byteLength (lexeme c rest).text)
              (lexeme c rest).after := by
  rw [tokensFrom]
  split
  · next other => rw [cut] at other; cases other
  · next other =>
    rw [cut] at other
    cases other
    rfl

theorem tokensFrom_token (cut : splitTrivia false text = (trivia, c :: rest))
    (isKind : (lexeme c rest).kind = .ok kind) :
    tokensFrom offset text = (⟨kind, ⟨offset + byteLength trivia,
        offset + byteLength trivia + byteLength (lexeme c rest).text⟩⟩ :: ·) <$>
          tokensFrom (offset + byteLength trivia + byteLength (lexeme c rest).text)
            (lexeme c rest).after := by
  rw [tokensFrom_cons cut, isKind]

/-- How a text is cut into tokens, one after the other. -/
inductive CutInto : Nat → List Char → List Token → Prop where
  | nil (split : splitTrivia false text = (trivia, [])) : CutInto offset text []
  | token (split : splitTrivia false text = (trivia, c :: rest))
      (isKind : (lexeme c rest).kind = .ok kind) (start : span.start = offset + byteLength trivia)
      (stop : span.stop = span.start + byteLength (lexeme c rest).text)
      (later : CutInto span.stop (lexeme c rest).after others) :
      CutInto offset text (⟨kind, span⟩ :: others)

theorem tokensFrom_eq_ok_iff :
    tokensFrom offset text = .ok tokens ↔ CutInto offset text tokens := by
  constructor
  · intro cut
    fun_induction tokensFrom offset text generalizing tokens with
    | case1 offset text trivia split =>
      cases cut
      exact .nil split
    | case2 => cases cut
    | case3 offset text trivia c rest split found start span kind isKind =>
      rename_i ih
      cases later : tokensFrom span.stop found.after with
      | error => rw [later] at cut; cases cut
      | ok others =>
        rw [later] at cut
        cases cut
        exact .token split isKind rfl rfl (ih later)
  · intro cut
    induction cut with
    | nil split => exact tokensFrom_nil split
    | token split isKind start stop later ih =>
      rw [tokensFrom_token split isKind, ← start, ← stop, ih]
      rfl

/-! ### Trivia are skipped -/

private theorem splitTrivia_comment (inside : ∀ c ∈ text, breaksLine c = false)
    (ends : breaksLine stop = true) (rest : List Char) :
    splitTrivia true (text ++ stop :: rest) =
      (text ++ stop :: (splitTrivia false rest).1, (splitTrivia false rest).2) := by
  induction text with
  | nil => simp [splitTrivia, ends]
  | cons c text ih =>
    have goesOn : breaksLine c = false := inside c List.mem_cons_self
    have others := ih fun next member => inside next (List.mem_cons_of_mem _ member)
    simp [splitTrivia, goesOn, others]

theorem splitTrivia_gap (trivia : Trivia gap) (text : List Char) :
    splitTrivia false (gap ++ text) =
      (gap ++ (splitTrivia false text).1, (splitTrivia false text).2) := by
  induction trivia with
  | nil => rfl
  | spacing separates rest ih => simp [splitTrivia, separates, ih]
  | comment inside ends rest ih =>
    have notSpacing : isSpacing ';' = false := rfl
    simp [splitTrivia, notSpacing, splitTrivia_comment inside ends, ih]

theorem splitTrivia_start (text : isSpacing c = false) (code : c ≠ ';') (rest : List Char) :
    splitTrivia false (c :: rest) = ([], c :: rest) := by
  simp [splitTrivia, text, code]

/-- The tokens of a text come from what follows its trivia. -/
theorem tokensFrom_skip (cut : splitTrivia false longer =
      (before ++ (splitTrivia false text).1, (splitTrivia false text).2)) (offset : Nat) :
    tokensFrom offset longer = tokensFrom (offset + byteLength before) text := by
  match split : splitTrivia false text with
  | (trivia, []) =>
    rw [split] at cut
    rw [tokensFrom_nil cut, tokensFrom_nil split]
  | (trivia, c :: rest) =>
    rw [split] at cut
    rw [tokensFrom_cons cut, tokensFrom_cons split]
    simp only [byteLength_append, Nat.add_assoc]

/-- Trivia before a text only move its tokens on. -/
theorem tokensFrom_gap (trivia : Trivia gap) (offset : Nat) (text : List Char) :
    tokensFrom offset (gap ++ text) = tokensFrom (offset + byteLength gap) text :=
  tokensFrom_skip (splitTrivia_gap trivia text) offset

/-! ### Spelled tokens are cut out -/

theorem startsAtom_iff : startsAtom c = true ↔
    continuesAtom c = true ∧ c ≠ '~' ∧ c ≠ '^' ∧ c ≠ '@' := by
  simp [startsAtom, continuesAtom, and_assoc]

theorem continuesAtom_iff : continuesAtom c = true ↔
    isSpacing c = false ∧ Bracket.ofOpen? c = none ∧ Bracket.ofClose? c = none ∧
      c ≠ '\x27' ∧ c ≠ '\x22' ∧ c ≠ '\x60' ∧ c ≠ ';' := by
  simp [continuesAtom, isDelimiter, and_assoc]

theorem splitLiteral_encode (text after : List Char) :
    splitLiteral (text.flatMap encodeChar ++ '\x22' :: after) =
      (text.flatMap encodeChar ++ ['\x22'], after) := by
  induction text with
  | nil => rfl
  | cons c rest ih =>
    by_cases quote : c = '\x22'
    · subst quote
      simp [encodeChar, splitLiteral, ih]
    by_cases feed : c = '\n'
    · subst feed
      simp [encodeChar, splitLiteral, ih]
    by_cases backslash : c = '\\'
    · subst backslash
      simp [encodeChar, splitLiteral, ih]
    have ordinary : encodeChar c = [c] := by simp [encodeChar, quote, feed, backslash]
    rw [List.flatMap_cons, ordinary, List.append_assoc, List.singleton_append, splitLiteral]
    · rw [ih]
      rfl
    · exact quote
    · exact fun h _ => backslash h
    · exact fun _ _ h _ => backslash h

private theorem takeWhile_append (all : ∀ c ∈ text, p c = true)
    (stops : ∀ c rest, after = c :: rest → p c = false) :
    (text ++ after).takeWhile p = text ∧ (text ++ after).dropWhile p = after := by
  rw [List.takeWhile_append_of_pos all, List.dropWhile_append_of_pos all]
  cases after with
  | nil => simp
  | cons c rest => simp [stops c rest rfl]

/-- The spelling of a token before which it ends is one lexeme, and no trivia. -/
theorem lexeme_spelling (lexical : TokenKind.IsLexical kind) (ends : kind.EndsBefore after) :
    ∃ c rest, kind.spelling ++ after = c :: rest ∧ isSpacing c = false ∧ c ≠ ';' ∧
      lexeme c rest = ⟨.ok kind, kind.spelling, after⟩ := by
  cases kind with
  | opening bracket => cases bracket <;> exact ⟨_, after, rfl, rfl, by decide, rfl⟩
  | closing bracket => cases bracket <;> exact ⟨_, after, rfl, rfl, by decide, rfl⟩
  | shorthand mark =>
    cases mark with
    | quote => exact ⟨_, after, rfl, rfl, by decide, rfl⟩
    | quasiquote => exact ⟨_, after, rfl, rfl, by decide, rfl⟩
    | deref => exact ⟨_, after, rfl, rfl, by decide, rfl⟩
    | spliceUnquote => exact ⟨_, '@' :: after, rfl, rfl, by decide, rfl⟩
    | unquote =>
      refine ⟨_, after, rfl, rfl, by decide, ?_⟩
      cases after with
      | nil => rfl
      | cons next rest =>
        have other : next ≠ '@' := fun same => ends rest (congrArg (· :: rest) same)
        simp [lexeme, TokenKind.ofMark?, Bracket.ofOpen?, Bracket.ofClose?, TokenKind.spelling,
          Shorthand.spelling, other]
  | caret => exact ⟨_, after, rfl, rfl, by decide, rfl⟩
  | str text =>
    have spelled : (TokenKind.str text).spelling ++ after =
        '\x22' :: (text.toList.flatMap encodeChar ++ '\x22' :: after) := by
      simp [TokenKind.spelling, encodeLiteral]
    refine ⟨_, _, spelled, rfl, by decide, ?_⟩
    simp only [lexeme, TokenKind.ofMark?, Bracket.ofOpen?, Bracket.ofClose?, splitLiteral_encode,
      decodeLiteral_encode]
    have decoded : (fun text => TokenKind.str (String.ofList text)) <$>
        (Except.ok text.toList : Except LexicalFault (List Char)) = .ok (.str text) :=
      congrArg (fun text => Except.ok (TokenKind.str text)) String.ofList_toList
    simp [decoded, TokenKind.spelling, encodeLiteral]
  | atom text =>
    obtain ⟨c, rest, same, starts, goesOn⟩ := lexical
    obtain ⟨continues, tilde, caret, at_⟩ := startsAtom_iff.1 starts
    obtain ⟨spacing, opens, closes, quote, double, back, code⟩ := continuesAtom_iff.1 continues
    obtain ⟨taken, left⟩ := takeWhile_append goesOn ends
    refine ⟨c, rest ++ after, by simp [TokenKind.spelling, same], spacing, code, ?_⟩
    have whole : String.ofList (c :: rest) = text := by rw [← same, String.ofList_toList]
    simp [lexeme, TokenKind.ofMark?, opens, closes, quote, back, at_, caret, tilde, double, starts,
      taken, left, whole, TokenKind.spelling, same]

/-- Cutting a text gives the tokens that it spells. -/
theorem Spells.cut (spells : Spells offset tokens text) : tokensFrom offset text = .ok tokens := by
  induction spells with
  | nil => exact tokensFrom_nil rfl
  | gap trivia rest ih => rw [tokensFrom_gap trivia, ih]
  | token lexical ends rest ih =>
    obtain ⟨c, after, same, spacing, code, found⟩ := lexeme_spelling lexical ends
    rw [same, tokensFrom_cons (splitTrivia_start spacing code after), found]
    simp only [byteLength, Nat.add_zero, ih]
    rfl

/-! ### Cut tokens have a spelling -/

theorem TokenKind.ofMark?_isLexical (found : ofMark? c = some kind) : kind.IsLexical := by
  revert found
  fun_cases ofMark? c <;> rintro ⟨⟩ <;> trivial

theorem lexeme_isLexical (found : (lexeme c rest).kind = .ok kind) : kind.IsLexical := by
  unfold lexeme at found
  split at found
  · next mark =>
    cases found
    exact TokenKind.ofMark?_isLexical mark
  split at found
  · split at found <;> cases found <;> trivial
  split at found
  · dsimp only at found
    cases decoded : decodeLiteral (splitLiteral rest).1 with
    | error => rw [decoded] at found; cases found
    | ok text =>
      rw [decoded] at found
      cases found
      trivial
  split at found
  · next starts =>
    cases found
    refine ⟨c, rest.takeWhile continuesAtom, by simp, starts, ?_⟩
    intro next member
    exact List.mem_takeWhile_imp member
  · cases found

/-- Every token that is cut from a text has a spelling. -/
theorem tokensFrom_isLexical (cut : tokensFrom offset text = .ok tokens) :
    ∀ token ∈ tokens, token.kind.IsLexical := by
  rw [tokensFrom_eq_ok_iff] at cut
  induction cut with
  | nil => simp
  | token split isKind start stop later ih =>
    exact List.forall_mem_cons.2 ⟨lexeme_isLexical isKind, ih⟩

end MiniLisp
