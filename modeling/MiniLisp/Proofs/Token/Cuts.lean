import MiniLisp.Proofs.Token.Spelling

/-! Where tokens lie in a text, and what becomes of them in a text that ends early. Tokens follow one
another without overlapping. If a text is cut short, the tokens before the cut stay what they are, and
at most one token is cut through: an atom gets shorter, of the mark for splicing the tilde is left, and
a string lacks its end. -/

namespace MiniLisp

/-! ### The order of tokens -/

theorem byteLength_pos (some : text ≠ []) : 0 < byteLength text := by
  cases text with
  | nil => exact (some rfl).elim
  | cons c rest => exact Nat.add_pos_left c.utf8Size_pos _

/-- Tokens that take up some bytes each and follow one another between two offsets. -/
def InOrder (start : Nat) : List Token → Nat → Prop
  | [], stop => start ≤ stop
  | token :: tokens, stop =>
    start ≤ token.span.start ∧ token.span.start < token.span.stop ∧
      InOrder token.span.stop tokens stop

theorem InOrder.le (order : InOrder start tokens stop) : start ≤ stop := by
  induction tokens generalizing start with
  | nil => exact order
  | cons token tokens ih =>
    have later := ih order.2.2
    have first := order.1
    have some := order.2.1
    omega

theorem InOrder.mem (order : InOrder start tokens stop) (member : token ∈ tokens) :
    start ≤ token.span.start ∧ token.span.start < token.span.stop ∧ token.span.stop ≤ stop := by
  induction tokens generalizing start with
  | nil => cases member
  | cons first tokens ih =>
    obtain ⟨begins, some, order⟩ := order
    rcases List.mem_cons.1 member with rfl | member
    · exact ⟨begins, some, order.le⟩
    · obtain ⟨later, inside⟩ := ih order member
      exact ⟨by omega, inside⟩

theorem InOrder.split (order : InOrder start (first ++ second) stop) :
    ∃ between, InOrder start first between ∧ InOrder between second stop := by
  induction first generalizing start with
  | nil => exact ⟨start, Nat.le_refl start, order⟩
  | cons token tokens ih =>
    obtain ⟨begins, some, later⟩ := order
    obtain ⟨between, inside, after⟩ := ih later
    exact ⟨between, ⟨begins, some, inside⟩, after⟩

/-- A text starts with the trivia and the first lexeme that are cut off from it. -/
theorem text_of_split (split : splitTrivia false text = (trivia, c :: rest)) :
    text = trivia ++ (lexeme c rest).text ++ (lexeme c rest).after := by
  rw [List.append_assoc, lexeme_append, ← splitTrivia_append false text, split]

/-- The text after a token ends where the whole text ends. -/
theorem stop_add_byteLength_after (split : splitTrivia false text = (trivia, c :: rest))
    (start : place = offset + byteLength trivia) :
    place + byteLength (lexeme c rest).text + byteLength (lexeme c rest).after =
      offset + byteLength text := by
  rw [text_of_split split, byteLength_append, byteLength_append, start]
  omega

theorem eq_nil_of_byteLength_eq_zero (none : byteLength text = 0) : text = [] := by
  by_contra some
  exact absurd none (Nat.ne_of_gt (byteLength_pos some))

/-- A text that is one token by itself is one lexeme. -/
theorem lexeme_of_alone (alone : tokensFrom 0 text = .ok [⟨kind, ⟨0, byteLength text⟩⟩]) :
    ∃ c rest, text = c :: rest ∧ lexeme c rest = ⟨.ok kind, c :: rest, []⟩ := by
  rw [tokensFrom_eq_ok_iff] at alone
  cases alone with
  | @token _ trivia c rest _ _ _ _ split isKind start stop later =>
    have start : 0 = 0 + byteLength trivia := start
    have stop : byteLength text = 0 + byteLength (lexeme c rest).text := stop
    have bytes := stop_add_byteLength_after split start
    have before : trivia = [] := eq_nil_of_byteLength_eq_zero (by omega)
    have behind : (lexeme c rest).after = [] := eq_nil_of_byteLength_eq_zero (by omega)
    have spelled := lexeme_append c rest
    rw [behind, List.append_nil] at spelled
    refine ⟨c, rest, ?_, ?_⟩
    · rw [← splitTrivia_append false text, split, before, List.nil_append]
    · rw [← isKind, ← spelled, ← behind]

/-- The tokens of a text lie one after the other within it. -/
theorem tokensFrom_inOrder (cut : tokensFrom offset text = .ok tokens) :
    InOrder offset tokens (offset + byteLength text) := by
  rw [tokensFrom_eq_ok_iff] at cut
  induction cut with
  | nil => exact Nat.le_add_right _ _
  | @token _ _ c rest _ _ _ _ split isKind start stop later ih =>
    have some : 0 < byteLength (lexeme c rest).text := byteLength_pos (lexeme_text_ne_nil c rest)
    have ends := stop_add_byteLength_after split start
    rw [← stop] at ends
    refine ⟨start ▸ Nat.le_add_right _ _, stop ▸ Nat.lt_add_of_pos_right some, ?_⟩
    rwa [← ends]

/-! ### Literals that are cut short -/

/-- The characters that make an escape with the backslash before them. -/
def IsEscape (c : Char) : Prop := c = 'n' ∨ c = '\\' ∨ c = '\x22'

/-- An escape stands for a character that is written as this escape. -/
theorem decodeLiteral_known (known : IsEscape c) :
    ∃ d, encodeChar d = ['\\', c] ∧
      ∀ rest, decodeLiteral ('\\' :: c :: rest) = (d :: ·) <$> decodeLiteral rest := by
  rcases known with rfl | rfl | rfl
  · exact ⟨'\n', rfl, fun rest => rfl⟩
  · exact ⟨'\\', rfl, fun rest => rfl⟩
  · exact ⟨'\x22', rfl, fun rest => rfl⟩

theorem decodeLiteral_unknown (unknown : ¬ IsEscape c) (rest : List Char) :
    decodeLiteral ('\\' :: c :: rest) = .error (.unknownEscape c) := by
  obtain ⟨feed, backslash, quote⟩ : c ≠ 'n' ∧ c ≠ '\\' ∧ c ≠ '\x22' := by
    simpa [IsEscape] using unknown
  rw [decodeLiteral, if_neg feed, if_neg (by simp [backslash, quote])]

theorem decodeLiteral_escape (c : Char) :
    (∀ rest, decodeLiteral ('\\' :: c :: rest) = .error (.unknownEscape c)) ∨
      ∃ d, ∀ rest, decodeLiteral ('\\' :: c :: rest) = (d :: ·) <$> decodeLiteral rest := by
  by_cases known : IsEscape c
  · obtain ⟨d, -, mapped⟩ := decodeLiteral_known known
    exact .inr ⟨d, mapped⟩
  · exact .inl (decodeLiteral_unknown known)

theorem decodeLiteral_ordinary (quote : c ≠ '\x22') (backslash : c ≠ '\\') (rest : List Char) :
    decodeLiteral (c :: rest) = (c :: ·) <$> decodeLiteral rest := by
  rw [decodeLiteral]
  · exact quote
  · exact fun same _ => backslash same
  · exact fun _ _ same _ => backslash same

theorem splitLiteral_ordinary (quote : c ≠ '\x22') (backslash : c ≠ '\\') (rest : List Char) :
    splitLiteral (c :: rest) = (c :: (splitLiteral rest).1, (splitLiteral rest).2) := by
  rw [splitLiteral]
  · exact quote
  · exact fun same _ => backslash same
  · exact fun _ _ same _ => backslash same

/-- What the splitting of a literal knows of a character that it takes as it is. -/
theorem ne_backslash_of_split (lone : c = '\\' → rest = [] → False)
    (escape : ∀ (d : Char) (others : List Char), c = '\\' → rest = d :: others → False) :
    c ≠ '\\' := by
  intro same
  cases rest with
  | nil => exact lone same rfl
  | cons d others => exact escape d others same rfl

/-- A literal does not depend on what follows it. -/
theorem splitLiteral_take (split : splitLiteral text = (inside, after ++ gone)) :
    splitLiteral (inside ++ after) = (inside, after) := by
  fun_induction splitLiteral text generalizing inside after with
  | case1 =>
    obtain ⟨rfl, rfl, rfl⟩ := by simpa using split
    rfl
  | case2 rest =>
    cases split
    rfl
  | case3 =>
    obtain ⟨rfl, same⟩ := by simpa using split
    rcases List.append_eq_singleton_iff.1 same.symm with ⟨rfl, -⟩ | ⟨rfl, -⟩ <;> rfl
  | case4 c rest inside' after' cut ih =>
    cases split
    simp [splitLiteral, ih cut]
  | case5 c rest quote lone escape inside' after' cut ih =>
    cases split
    have backslash := ne_backslash_of_split lone escape
    rw [List.cons_append, splitLiteral_ordinary quote backslash, ih cut]

/-- A literal that is cut short lacks its end. -/
theorem decodeLiteral_cut (split : splitLiteral (before ++ after) = (before ++ left, rest))
    (some : left ≠ []) (decoded : decodeLiteral (before ++ left) = .ok text) :
    decodeLiteral (splitLiteral before).1 = .error .unterminatedString := by
  fun_induction splitLiteral before generalizing text with
  | case1 => rfl
  | case2 others =>
    have closed : '\x22' :: others ++ left = ['\x22'] := (congrArg Prod.fst split).symm
    exact (some (List.append_eq_nil_iff.1 (List.cons.inj closed).2).2).elim
  | case3 => rfl
  | case4 c others inside after' cut ih =>
    rw [cut] at ih
    have inner : splitLiteral (others ++ after) = (others ++ left, rest) := by
      simpa [splitLiteral, Prod.ext_iff] using split
    rw [List.cons_append, List.cons_append] at decoded
    rcases decodeLiteral_escape c with failed | ⟨d, mapped⟩
    · rw [failed] at decoded
      cases decoded
    · rw [mapped] at decoded
      cases decoded' : decodeLiteral (others ++ left) with
      | error => rw [decoded'] at decoded; cases decoded
      | ok text' =>
        rw [mapped, ih inner decoded']
        rfl
  | case5 c others quote lone escape inside after' cut ih =>
    rw [cut] at ih
    have backslash := ne_backslash_of_split lone escape
    rw [List.cons_append, splitLiteral_ordinary quote backslash] at split
    have inner : splitLiteral (others ++ after) = (others ++ left, rest) := by
      simpa [Prod.ext_iff] using split
    rw [List.cons_append, decodeLiteral_ordinary quote backslash] at decoded
    cases decoded' : decodeLiteral (others ++ left) with
    | error => rw [decoded'] at decoded; cases decoded
    | ok text' =>
      rw [decodeLiteral_ordinary quote backslash, ih inner decoded']
      rfl

/-! ### Lexemes that are cut short -/

/-- What a token becomes in a text that ends inside it, with what is left of its spelling. -/
inductive TokenKind.CutShort : TokenKind → List Char → Except LexicalFault TokenKind → Prop where
  | atom : CutShort (.atom text) left (.ok (.atom (String.ofList left)))
  | tilde : CutShort (.shorthand .spliceUnquote) ['~'] (.ok (.shorthand .unquote))
  | str : CutShort (.str text) left (.error .unterminatedString)

theorem lexeme_mark (mark : TokenKind.ofMark? c = some kind) (rest : List Char) :
    lexeme c rest = ⟨.ok kind, [c], rest⟩ := by
  simp only [lexeme, mark]

theorem lexeme_quote (rest : List Char) : lexeme '\x22' rest =
    ⟨(fun text => .str (String.ofList text)) <$> decodeLiteral (splitLiteral rest).1,
      '\x22' :: (splitLiteral rest).1, (splitLiteral rest).2⟩ := rfl

theorem lexeme_atom (starts : startsAtom c = true) (rest : List Char) : lexeme c rest =
    ⟨.ok (.atom (String.ofList (c :: rest.takeWhile continuesAtom))),
      c :: rest.takeWhile continuesAtom, rest.dropWhile continuesAtom⟩ := by
  obtain ⟨continues, tilde, caret, at_⟩ := startsAtom_iff.1 starts
  obtain ⟨-, opens, closes, quote, double, back, -⟩ := continuesAtom_iff.1 continues
  simp [lexeme, TokenKind.ofMark?, opens, closes, quote, back, at_, caret, tilde, double, starts]

theorem lexeme_splice (rest : List Char) :
    lexeme '~' ('@' :: rest) = ⟨.ok (.shorthand .spliceUnquote), ['~', '@'], rest⟩ := rfl

theorem lexeme_tilde (other : ∀ others, rest ≠ '@' :: others) :
    lexeme '~' rest = ⟨.ok (.shorthand .unquote), ['~'], rest⟩ := by
  have unmarked : TokenKind.ofMark? '~' = none := rfl
  simp only [lexeme, unmarked, ↓reduceIte]

/-- The ways in which a lexeme can start. -/
theorem lexeme_start (c : Char) :
    (∃ kind, TokenKind.ofMark? c = some kind) ∨ c = '~' ∨ c = '\x22' ∨ startsAtom c = true ∨
      ∀ rest, lexeme c rest = ⟨.error .invalidToken, [c], rest⟩ := by
  cases mark : TokenKind.ofMark? c with
  | some kind => exact .inl ⟨kind, rfl⟩
  | none =>
    by_cases tilde : c = '~'
    · exact .inr (.inl tilde)
    by_cases double : c = '\x22'
    · exact .inr (.inr (.inl double))
    by_cases starts : startsAtom c = true
    · exact .inr (.inr (.inr (.inl starts)))
    · exact .inr (.inr (.inr (.inr fun rest => by simp [lexeme, mark, tilde, double, starts])))

/-- The kinds of lexeme with a text of their own tell how the lexeme starts. -/
theorem lexeme_kind_cases (isKind : (lexeme c rest).kind = .ok kind) :
    (∀ text, kind ≠ .str text ∧ kind ≠ .atom text) ∨
      (c = '\x22' ∧ ∃ inside, decodeLiteral (splitLiteral rest).1 = .ok inside ∧
        kind = .str (String.ofList inside)) ∨
      startsAtom c = true ∧ kind = .atom (String.ofList (c :: rest.takeWhile continuesAtom)) := by
  rcases lexeme_start c with ⟨kind', mark⟩ | rfl | rfl | starts | invalid
  · rw [lexeme_mark mark] at isKind
    cases isKind
    revert mark
    fun_cases TokenKind.ofMark? c <;> rintro ⟨⟩ <;> simp
  · by_cases splice : ∃ others, rest = '@' :: others
    · obtain ⟨others, rfl⟩ := splice
      cases isKind
      simp
    · rw [lexeme_tilde fun others same => splice ⟨others, same⟩] at isKind
      cases isKind
      simp
  · rw [lexeme_quote] at isKind
    obtain ⟨inside, decoded, rfl⟩ := exists_of_map_eq_ok isKind
    exact .inr (.inl ⟨rfl, inside, decoded, rfl⟩)
  · rw [lexeme_atom starts] at isKind
    cases isKind
    exact .inr (.inr ⟨starts, rfl⟩)
  · rw [invalid] at isKind
    cases isKind

/-- A lexeme that is not cut through stays what it is. -/
theorem lexeme_take (found : lexeme c rest = ⟨kind, c :: inside, after ++ gone⟩) :
    lexeme c (inside ++ after) = ⟨kind, c :: inside, after⟩ := by
  rcases lexeme_start c with ⟨kind', mark⟩ | rfl | rfl | starts | invalid
  · rw [lexeme_mark mark] at found ⊢
    obtain ⟨rfl, rfl, -⟩ := by simpa using found
    rfl
  · by_cases splice : ∃ others, rest = '@' :: others
    · obtain ⟨others, rfl⟩ := splice
      rw [lexeme_splice] at found
      obtain ⟨rfl, rfl, -⟩ := by simpa using found
      rfl
    · rw [lexeme_tilde (fun others same => splice ⟨others, same⟩)] at found
      obtain ⟨rfl, rfl, rfl⟩ := by simpa using found
      refine lexeme_tilde ?_
      rintro others rfl
      exact splice ⟨_, rfl⟩
  · rw [lexeme_quote] at found ⊢
    obtain ⟨rfl, rfl, after'⟩ := by simpa using found
    rw [splitLiteral_take (Prod.ext rfl after')]
  · rw [lexeme_atom starts] at found ⊢
    obtain ⟨rfl, rfl, after'⟩ := by simpa using found
    have inside : ∀ d ∈ rest.takeWhile continuesAtom, continuesAtom d = true :=
      fun d member => List.mem_takeWhile_imp member
    have ends : ∀ d others, after = d :: others → continuesAtom d = false := by
      rintro d others rfl
      have head := List.head?_dropWhile_not continuesAtom rest
      rw [after'] at head
      simpa using head
    rw [List.takeWhile_append_of_pos inside, List.dropWhile_append_of_pos inside]
    cases after with
    | nil => simp
    | cons d others => simp [ends d others rfl]
  · rw [invalid] at found ⊢
    obtain ⟨rfl, rfl, -⟩ := by simpa using found
    rfl

/-- A lexeme that is cut through. -/
theorem lexeme_cut (found : lexeme c (before ++ after) = ⟨.ok kind, c :: (before ++ left), rest⟩)
    (some : left ≠ []) : kind.CutShort (c :: before) (lexeme c before).kind ∧
      ∀ kind', (lexeme c before).kind = .ok kind' →
        lexeme c before = ⟨.ok kind', c :: before, []⟩ := by
  have longer : before ++ left ≠ [] := fun none => some (List.append_eq_nil_iff.1 none).2
  rcases lexeme_start c with ⟨kind', mark⟩ | rfl | rfl | starts | invalid
  · rw [lexeme_mark mark] at found
    have short : [] = before ++ left := by simpa using (congrArg Lexeme.text found)
    exact (longer short.symm).elim
  · by_cases splice : ∃ others, before ++ after = '@' :: others
    · obtain ⟨others, same⟩ := splice
      rw [same, lexeme_splice] at found
      obtain ⟨rfl, spelled, -⟩ := by simpa using found
      rcases List.append_eq_singleton_iff.1 spelled.symm with ⟨rfl, -⟩ | ⟨-, none⟩
      · exact ⟨.tilde, fun kind' isKind => by cases isKind; rfl⟩
      · exact (some none).elim
    · rw [lexeme_tilde (fun others same => splice ⟨others, same⟩)] at found
      have short : [] = before ++ left := by simpa using (congrArg Lexeme.text found)
      exact (longer short.symm).elim
  · rw [lexeme_quote] at found
    obtain ⟨decoded, spelled, after'⟩ := by simpa using found
    rw [spelled] at decoded
    cases text : decodeLiteral (before ++ left) with
    | error => rw [text] at decoded; cases decoded
    | ok text' =>
      rw [text] at decoded
      cases decoded
      have failed : (lexeme '\x22' before).kind = .error .unterminatedString := by
        rw [lexeme_quote, decodeLiteral_cut (Prod.ext spelled rfl) some text]
        rfl
      rw [failed]
      exact ⟨.str, fun kind' isKind => by cases isKind⟩
  · rw [lexeme_atom starts] at found
    obtain ⟨rfl, spelled, -⟩ := by simpa using found
    have inside : ∀ d ∈ before, continuesAtom d = true := by
      intro d member
      have taken : d ∈ (before ++ after).takeWhile continuesAtom := by simp [spelled, member]
      exact List.mem_takeWhile_imp taken
    have cut : lexeme c before =
        ⟨.ok (.atom (String.ofList (c :: before))), c :: before, []⟩ := by
      rw [lexeme_atom starts, List.takeWhile_eq_self_iff.2 inside,
        List.dropWhile_eq_nil_iff.2 inside]
    rw [cut]
    exact ⟨.atom, fun kind' isKind => by cases isKind; rfl⟩
  · rw [invalid] at found
    cases congrArg Lexeme.kind found

/-- A text ends behind the lexeme at its start, which is then that of the longer text, or inside it. -/
theorem lexeme_take_or_cut (isKind : (lexeme c (inside ++ after)).kind = .ok kind) :
    (∃ more, (lexeme c (inside ++ after)).after = more ++ after ∧
        lexeme c inside = ⟨.ok kind, (lexeme c (inside ++ after)).text, more⟩) ∨
      ∃ left, left ≠ [] ∧ (lexeme c (inside ++ after)).text = c :: inside ++ left ∧
        kind.CutShort (c :: inside) (lexeme c inside).kind ∧
          ∀ kind', (lexeme c inside).kind = .ok kind' →
            lexeme c inside = ⟨.ok kind', c :: inside, []⟩ := by
  have whole := lexeme_append c (inside ++ after)
  have some := lexeme_text_ne_nil c (inside ++ after)
  cases found : lexeme c (inside ++ after) with
  | mk kind' text rest =>
  rw [found] at whole some isKind
  cases isKind
  obtain ⟨none, -⟩ | ⟨spelled, rfl, same⟩ := List.append_eq_cons_iff.1 whole
  · exact (some none).elim
  obtain ⟨more, inside', rest'⟩ | ⟨left, spelled', after'⟩ := List.append_eq_append_iff.1 same.symm
  · subst inside' rest'
    exact .inl ⟨more, rfl, lexeme_take found⟩
  · cases left with
    | nil =>
      rw [List.append_nil] at spelled'
      subst spelled' after'
      have alone : lexeme c (spelled ++ []) = ⟨.ok kind, c :: spelled, []⟩ := lexeme_take found
      exact .inl ⟨[], rfl, by rwa [List.append_nil] at alone⟩
    | cons d left =>
      subst spelled'
      obtain ⟨cut, whole⟩ := lexeme_cut found (List.cons_ne_nil d left)
      exact .inr ⟨d :: left, List.cons_ne_nil d left, rfl, cut, whole⟩

/-! ### Texts that are cut short -/

/-- A text ends inside the trivia at its start, or has the same trivia as the longer text. -/
theorem splitTrivia_cut (inComment : Bool) (before after : List Char) :
    splitTrivia inComment before = (before, []) ∧
        (∃ more, (splitTrivia inComment (before ++ after)).1 = before ++ more) ∨
      ∃ trivia c inside, splitTrivia inComment before = (trivia, c :: inside) ∧
        splitTrivia inComment (before ++ after) = (trivia, c :: (inside ++ after)) := by
  fun_induction splitTrivia inComment before with
  | case1 => exact .inl ⟨rfl, _, rfl⟩
  | case2 c rest trivia rest' split ih =>
    rw [List.cons_append, splitTrivia, if_pos rfl]
    rcases ih with ⟨all, more, longer⟩ | ⟨trivia', d, inside, short, longer⟩
    · rw [split] at all
      cases all
      exact .inl ⟨rfl, more, congrArg (c :: ·) longer⟩
    · rw [split] at short
      cases short
      exact .inr ⟨c :: trivia, d, inside, rfl, by rw [longer]⟩
  | case3 inComment c rest outside spacing trivia rest' split ih =>
    rw [List.cons_append, splitTrivia, if_neg outside, if_pos spacing]
    rcases ih with ⟨all, more, longer⟩ | ⟨trivia', d, inside, short, longer⟩
    · rw [split] at all
      cases all
      exact .inl ⟨rfl, more, congrArg (c :: ·) longer⟩
    · rw [split] at short
      cases short
      exact .inr ⟨c :: trivia, d, inside, rfl, by rw [longer]⟩
  | case4 inComment rest outside trivia rest' split spacing ih =>
    rw [List.cons_append, splitTrivia, if_neg outside, if_neg spacing, if_pos rfl]
    rcases ih with ⟨all, more, longer⟩ | ⟨trivia', d, inside, short, longer⟩
    · rw [split] at all
      cases all
      exact .inl ⟨rfl, more, congrArg (';' :: ·) longer⟩
    · rw [split] at short
      cases short
      exact .inr ⟨';' :: trivia, d, inside, rfl, by rw [longer]⟩
  | case5 inComment c rest outside spacing code =>
    refine .inr ⟨[], c, rest, rfl, ?_⟩
    rw [List.cons_append, splitTrivia, if_neg outside, if_neg spacing, if_neg code]

/-- A text ends inside a token that follows others. Its last characters are those of the token so far:
cut on their own they are a shorter token, or if the token is a string, a string without its end. -/
inductive EndsInside (offset : Nat) (text : List Char) (done : List Token) : Token → Prop where
  | atom (split : text = earlier ++ left) (some : left ≠ [])
      (start : span.start = offset + byteLength earlier)
      (stop : offset + byteLength text < span.stop)
      (cut : tokensFrom offset text = .ok (done ++
        [⟨.atom (String.ofList left), ⟨span.start, offset + byteLength text⟩⟩])) :
      EndsInside offset text done ⟨.atom spelling, span⟩
  | tilde (start : span.start < offset + byteLength text)
      (stop : offset + byteLength text < span.stop)
      (cut : tokensFrom offset text = .ok (done ++
        [⟨.shorthand .unquote, ⟨span.start, offset + byteLength text⟩⟩])) :
      EndsInside offset text done ⟨.shorthand .spliceUnquote, span⟩
  | str (start : span.start < offset + byteLength text)
      (stop : offset + byteLength text < span.stop)
      (failed : tokensFrom offset text =
        .error ⟨.unterminatedString, ⟨span.start, stop'⟩⟩) :
      EndsInside offset text done ⟨.str inside, span⟩

namespace EndsInside

theorem start_lt (inside : EndsInside offset text done token) :
    token.span.start < offset + byteLength text := by
  cases inside with
  | atom split some start stop cut =>
    rw [start, split, byteLength_append]
    have := byteLength_pos some
    omega
  | tilde start => exact start
  | str start => exact start

theorem lt_stop (inside : EndsInside offset text done token) :
    offset + byteLength text < token.span.stop := by
  cases inside with
  | atom split some start stop cut => exact stop
  | tilde start stop => exact stop
  | str start stop => exact stop

/-- A text that ends inside its first token. -/
theorem of_cutShort
    (split : splitTrivia false (trivia ++ c :: before) = (trivia, c :: before))
    (short : TokenKind.CutShort kind (c :: before) (lexeme c before).kind)
    (whole : ∀ kind', (lexeme c before).kind = .ok kind' →
      lexeme c before = ⟨.ok kind', c :: before, []⟩)
    (inside : offset + byteLength (trivia ++ c :: before) < stop) :
    EndsInside offset (trivia ++ c :: before) [] ⟨kind, ⟨offset + byteLength trivia, stop⟩⟩ := by
  have some : 0 < byteLength (c :: before) := byteLength_pos (List.cons_ne_nil c before)
  have stops : offset + byteLength trivia + byteLength (c :: before) =
      offset + byteLength (trivia ++ c :: before) := by
    rw [byteLength_append, Nat.add_assoc]
  have starts : offset + byteLength trivia < offset + byteLength (trivia ++ c :: before) := by
    omega
  have cut : tokensFrom offset (trivia ++ c :: before) = _ := tokensFrom_cons split
  have ends : ∀ place, tokensFrom place [] = .ok [] := fun _ => tokensFrom_nil rfl
  cases isKind : (lexeme c before).kind with
  | ok kind' =>
    rw [whole kind' isKind] at cut
    simp only [stops, ends] at cut
    rw [isKind] at short
    cases short with
    | atom => exact .atom rfl (List.cons_ne_nil c before) rfl inside cut
    | tilde => exact .tilde starts inside cut
  | error fault =>
    rw [isKind] at cut short
    cases short
    exact .str starts inside cut

/-- What comes before a text changes nothing about the token that it ends inside. -/
theorem prepend (inside : EndsInside offset text done token)
    (cut : tokensFrom offset' (before ++ text) = (first :: ·) <$> tokensFrom offset text)
    (moved : offset = offset' + byteLength before) :
    EndsInside offset' (before ++ text) (first :: done) token := by
  have stops : offset + byteLength text = offset' + byteLength (before ++ text) := by
    rw [moved, byteLength_append, Nat.add_assoc]
  cases inside with
  | atom split some start stop inner =>
    rw [inner, stops] at cut
    refine .atom (by rw [split, List.append_assoc]) some ?_ (stops ▸ stop) cut
    rw [start, moved, byteLength_append, Nat.add_assoc]
  | tilde start stop inner =>
    rw [inner, stops] at cut
    exact .tilde (stops ▸ start) (stops ▸ stop) cut
  | str start stop inner =>
    rw [inner] at cut
    exact .str (stops ▸ start) (stops ▸ stop) cut

end EndsInside

/-- A text ends among tokens, and these are what it is cut into: those before its end stay what they
are, those behind it are lost, and at most one is cut through. -/
def EndsAmong (offset : Nat) (text : List Char) (tokens : List Token) : Prop :=
  ∃ done later, tokens = done ++ later ∧
    (∀ token ∈ done, token.span.stop ≤ offset + byteLength text) ∧
    (tokensFrom offset text = .ok done ∧
        (∀ token ∈ later, offset + byteLength text ≤ token.span.start) ∨
      ∃ token others, later = token :: others ∧ EndsInside offset text done token ∧
        ∀ token ∈ others, offset + byteLength text ≤ token.span.start)

namespace EndsAmong

theorem before_first (trivia : splitTrivia false text = (text, []))
    (apart : ∀ token ∈ tokens, offset + byteLength text ≤ token.span.start) :
    EndsAmong offset text tokens :=
  ⟨[], tokens, rfl, by simp, .inl ⟨tokensFrom_nil trivia, apart⟩⟩

theorem inside_first (inside : EndsInside offset text [] token)
    (apart : ∀ other ∈ others, offset + byteLength text ≤ other.span.start) :
    EndsAmong offset text (token :: others) :=
  ⟨[], token :: others, rfl, by simp, .inr ⟨token, others, rfl, inside, apart⟩⟩

theorem behind_first (rest : EndsAmong token.span.stop text tokens)
    (cut : tokensFrom offset (before ++ text) =
      (token :: ·) <$> tokensFrom token.span.stop text)
    (stop : token.span.stop = offset + byteLength before) :
    EndsAmong offset (before ++ text) (token :: tokens) := by
  have bytes : offset + byteLength (before ++ text) = token.span.stop + byteLength text := by
    rw [stop, byteLength_append, Nat.add_assoc]
  obtain ⟨done, later, rfl, earlier, ends⟩ := rest
  refine ⟨token :: done, later, rfl, ?_, ?_⟩
  · rw [bytes]
    exact List.forall_mem_cons.2 ⟨Nat.le_add_right _ _, earlier⟩
  rcases ends with ⟨inner, apart⟩ | ⟨token', others, same, inside, apart⟩
  · rw [bytes]
    exact .inl ⟨by rw [cut, inner]; rfl, apart⟩
  · refine .inr ⟨token', others, same, inside.prepend cut stop, ?_⟩
    rwa [bytes]

end EndsAmong

/-- A text that is cut short ends among the tokens that it had. -/
theorem tokensFrom_cut (cut : tokensFrom offset (before ++ after) = .ok tokens) :
    EndsAmong offset before tokens := by
  generalize same : before ++ after = text at cut
  rw [tokensFrom_eq_ok_iff] at cut
  induction cut generalizing before after with
  | nil split =>
    subst same
    rcases splitTrivia_cut false before after with ⟨all, -⟩ | ⟨trivia', c, inside, -, longer⟩
    · exact .before_first all (by simp)
    · rw [longer] at split
      cases split
  | @token _ trivia c rest kind offset others span split isKind start stop later ih =>
    subst same
    have startsLater : ∀ token ∈ others, span.stop ≤ token.span.start := fun token member =>
      ((tokensFrom_inOrder (tokensFrom_eq_ok_iff.2 later)).mem member).1
    rcases splitTrivia_cut false before after with
      ⟨all, more, longer⟩ | ⟨trivia', c', inside, short, longer⟩
    · rw [split] at longer
      have bytes : byteLength trivia = byteLength before + byteLength more := by
        rw [← byteLength_append]
        exact congrArg byteLength longer
      have starts : offset + byteLength before ≤ span.start := by omega
      have startsBeforeStop : span.start ≤ span.stop := stop ▸ Nat.le_add_right _ _
      exact .before_first all (List.forall_mem_cons.2 ⟨starts, fun token member =>
        (starts.trans startsBeforeStop).trans (startsLater token member)⟩)
    · rw [split] at longer
      cases longer
      obtain rfl : trivia ++ c :: inside = before := by
        rw [← splitTrivia_append false before, short]
      rcases lexeme_take_or_cut isKind with ⟨more, left, taken⟩ | ⟨left, some, longer, cut, whole⟩
      · have spelled : trivia ++ c :: inside =
            trivia ++ (lexeme c (inside ++ after)).text ++ more := by
          rw [List.append_assoc, ← lexeme_append c inside, taken]
        have firstCut : tokensFrom offset (trivia ++ c :: inside) =
            (⟨kind, span⟩ :: ·) <$> tokensFrom span.stop more := by
          rw [tokensFrom_cons short, taken, ← start, ← stop]
        rw [spelled] at firstCut ⊢
        refine (ih left.symm).behind_first firstCut ?_
        rw [stop, start, byteLength_append, Nat.add_assoc]
      · have positive : 0 < byteLength left := byteLength_pos some
        have longer' : span.stop =
            offset + byteLength (trivia ++ c :: inside) + byteLength left := by
          rw [stop, start, longer, byteLength_append, byteLength_append]
          omega
        have short' : offset + byteLength (trivia ++ c :: inside) < span.stop := by omega
        have place : span = ⟨offset + byteLength trivia, span.stop⟩ := by rw [← start]
        rw [place] at short' ⊢
        refine .inside_first (.of_cutShort short cut whole short') fun token member => ?_
        have behind := startsLater token member
        omega

end MiniLisp
