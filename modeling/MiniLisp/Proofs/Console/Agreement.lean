import MiniLisp.Console.Highlight
import MiniLisp.Proofs.Console.Validation

/-! The highlighter and the validator. The highlighter takes the first comment of a text to go on to
the end of the text, the validator only to the end of the line. Up to there both split the text alike
into strings, comment and code, and the first bracket that the highlighter marks as one that does not
match is the one that the validator names. Behind that line the highlighter marks nothing. -/

namespace MiniLisp

/-! ### Strings, comments and code -/

/-- What a character belongs to. -/
inductive Part where
  | string
  | comment
  | code
deriving DecidableEq, Repr

/-- What a character belongs to, given where the scan stands before it. Quotes belong to their string,
and a semicolon to the comment that it starts. -/
def Mode.part : Mode → Char → Part
  | code, c => if c = '\x22' then .string else if c = ';' then .comment else .code
  | string, _ => .string
  | escape, _ => .string
  | comment, _ => .comment

/-- The characters of a text, each with what it belongs to. -/
def partsFrom (closesComment : Char → Bool) (mode : Mode) : List Char → List (Char × Part)
  | [] => []
  | c :: rest => (c, mode.part c) :: partsFrom closesComment (mode.after closesComment c) rest

/-- What the characters of a colour belong to. Brackets of any colour are code. -/
def Paint.part : Paint → Part
  | string => .string
  | comment => .comment
  | plain | paired | pairedOpening | mismatched | mismatchedOpening => .code

/-- The characters of a segment, each with what its colour says that it belongs to. -/
def Segment.parts (segment : Segment) : List (Char × Part) :=
  segment.text.map fun c => (c, segment.paint.part)

/-- A text cut behind the line in which its first comment stands. -/
def splitAfterComment (mode : Mode) : List Char → List Char × List Char
  | [] => ([], [])
  | c :: rest =>
    if mode = .comment ∧ c = '\n' then ([c], rest)
    else
      let (line, behind) := splitAfterComment (mode.after (· == '\n') c) rest
      (c :: line, behind)

theorem splitAfterComment_append (mode : Mode) (text : List Char) :
    (splitAfterComment mode text).1 ++ (splitAfterComment mode text).2 = text := by
  fun_induction splitAfterComment mode text <;> simp_all

/-- Where among the segments of a text the first bracket that does not match stands: which one it is,
and its offset in the text. -/
def FirstMismatch (segments : List Segment) (bracket : Bracket) (offset : Nat) : Prop :=
  ∃ before after, segments = before ++ ⟨[bracket.closeChar], .mismatched⟩ :: after ∧
    offset = byteLength (before.flatMap Segment.text) ∧
    ∀ segment ∈ before, segment.paint ≠ .mismatched

/-! ### Segments apart from the pairs of brackets -/

/-- The colour without what it says about pairs of brackets, which depends on the cursor and on what is
closed later. -/
def Paint.muted : Paint → Paint
  | string => .string
  | comment => .comment
  | mismatched => .mismatched
  | plain | paired | pairedOpening | mismatchedOpening => .plain

def Segment.muted (segment : Segment) : Segment := { segment with paint := segment.paint.muted }

/-- The segments of the rest of a text, without the pairs of brackets. -/
def mutedFrom (mode : Mode) (opened : List Bracket) : List Char → List Segment
  | [] => []
  | c :: rest =>
    let next := mode.after (fun _ => false) c
    if mode.inString || c = '\x22' then ⟨[c], .string⟩ :: mutedFrom next opened rest
    else if c = ';' then [⟨c :: rest, .comment⟩]
    else
      match Bracket.ofOpen? c, Bracket.ofClose? c with
      | some bracket, _ => ⟨[c], .plain⟩ :: mutedFrom next (bracket :: opened) rest
      | none, some bracket =>
        ⟨[c], if opened.head? = some bracket then .plain else .mismatched⟩ ::
          mutedFrom next opened.tail rest
      | none, none => ⟨[c], .plain⟩ :: mutedFrom next opened rest

/-- The segments painted so far, without the pairs of brackets. -/
def mutedSegments (segments : Array Segment) : List Segment := segments.toList.map Segment.muted

/-- Whether the segment at a place is code that matches so far. -/
def PlainAt (segments : Array Segment) (place : Nat) : Prop :=
  ∃ text, (mutedSegments segments)[place]? = some ⟨text, .plain⟩

theorem mutedSegments_push (segments : Array Segment) (segment : Segment) :
    mutedSegments (segments.push segment) = mutedSegments segments ++ [segment.muted] := by
  simp [mutedSegments]

theorem PlainAt.push (plain : PlainAt segments place) (segment : Segment) :
    PlainAt (segments.push segment) place := by
  obtain ⟨text, found⟩ := plain
  refine ⟨text, ?_⟩
  rw [mutedSegments_push, List.getElem?_append_left (List.getElem?_eq_some_iff.1 found).1, found]

theorem plainAt_push {segment : Segment} (muted : segment.muted = ⟨text, .plain⟩)
    (segments : Array Segment) : PlainAt (segments.push segment) segments.size := by
  refine ⟨text, ?_⟩
  rw [mutedSegments_push, muted]
  simp [mutedSegments]

/-- Another colour for a bracket that was opened changes nothing but what is said about its pair. -/
theorem mutedSegments_repaint (plain : PlainAt segments place) (muted : paint.muted = .plain) :
    mutedSegments (repaint segments place paint) = mutedSegments segments := by
  obtain ⟨text, found⟩ := plain
  rw [mutedSegments, List.getElem?_map, Option.map_eq_some_iff] at found
  obtain ⟨segment, inside, plain⟩ := found
  have paints : segment.paint.muted = .plain := congrArg Segment.paint plain
  rw [mutedSegments, mutedSegments, repaint, Array.toList_modify]
  refine List.ext_getElem? fun index => ?_
  rw [List.getElem?_map, List.getElem?_map, List.getElem?_modify]
  by_cases here : place = index
  · subst here
    simp [inside, Segment.muted, muted, paints]
  · simp [here]

theorem PlainAt.repaint {segments : Array Segment} (plain : PlainAt segments place')
    (here : PlainAt segments place) (muted : paint.muted = .plain) :
    PlainAt (MiniLisp.repaint segments place paint) place' := by
  rwa [PlainAt, mutedSegments_repaint here muted]

/-- What a closing bracket is painted does not depend on the cursor, apart from pairs of brackets. -/
theorem muted_closingPaints (cursor offset : Nat) (bracket : Bracket) (opening : Option OpenBracket) :
    (closingPaints cursor offset bracket opening).1.muted =
        (if opening.map OpenBracket.bracket = some bracket then .plain else .mismatched) ∧
      (closingPaints cursor offset bracket opening).2.muted = .plain := by
  fun_cases closingPaints cursor offset bracket opening <;> simp_all [Paint.muted]

/-- What the highlighter paints, whatever the cursor is, apart from the pairs of brackets. The places of the
brackets that are open stay those of code that matches, so that no other segment is painted over. -/
theorem mutedSegments_paintFrom (places : ∀ opening ∈ opened, PlainAt segments opening.place) :
    mutedSegments (paintFrom cursor offset mode opened segments text) =
      mutedSegments segments ++ mutedFrom mode (opened.map OpenBracket.bracket) text := by
  fun_induction paintFrom cursor offset mode opened segments text with
  | case1 => simp [mutedFrom]
  | case2 offset mode opened segments c rest following next string ih =>
    rw [ih fun opening member => (places opening member).push _, mutedSegments_push]
    simp [mutedFrom, string, Segment.muted, Paint.muted, next]
  | case3 offset mode opened segments rest code =>
    rw [mutedSegments_push, mutedFrom, if_neg code, if_pos rfl]
    rfl
  | case4 offset mode opened segments c rest following next code other bracket opens ih =>
    have known : ∀ opening ∈ ⟨bracket, offset, segments.size⟩ :: opened,
        PlainAt (segments.push ⟨[c], .plain⟩) opening.place := List.forall_mem_cons.2
      ⟨plainAt_push rfl segments, fun opening member => (places opening member).push _⟩
    rw [ih known, mutedSegments_push]
    simp [mutedFrom, code, other, opens, Segment.muted, Paint.muted, next]
  | case5 offset mode segments c rest following next code other bracket closes opens own ours paints
      ih =>
    rw [ih (List.forall_mem_nil _), mutedSegments_push]
    cases paints
    simp [mutedFrom, code, other, opens, closes, Segment.muted, Paint.muted, next]
  | case6 offset mode segments c rest following next code other bracket closes opens own ours opening
      outer paints ih =>
    obtain ⟨own', ours'⟩ := muted_closingPaints cursor offset bracket (opening :: outer).head?
    rw [paints] at own' ours'
    obtain ⟨here, others⟩ := List.forall_mem_cons.1 places
    have here := here.push ⟨[c], own⟩
    have known : ∀ opening' ∈ outer,
        PlainAt (repaint (segments.push ⟨[c], own⟩) opening.place ours) opening'.place :=
      fun opening' member => ((others opening' member).push _).repaint here ours'
    rw [ih known, mutedSegments_repaint here ours', mutedSegments_push]
    simp [mutedFrom, code, other, opens, closes, Segment.muted, own', next]
  | case7 offset mode opened segments c rest following next code other closes opens ih =>
    rw [ih fun opening member => (places opening member).push _, mutedSegments_push]
    simp [mutedFrom, code, other, opens, closes, Segment.muted, Paint.muted, next]

/-! ### The line of the first comment -/

section
variable {mode : Mode} (outside : mode ≠ .comment)
include outside

/-- What ends a comment plays no part outside of one. -/
theorem Mode.after_congr (closes closes' : Char → Bool) (c : Char) :
    mode.after closes c = mode.after closes' c := by
  cases mode with
  | comment => exact (outside rfl).elim
  | _ => rfl

/-- A comment starts only at a semicolon outside strings. -/
theorem Mode.after_ne_comment (starts : mode.inString = true ∨ c ≠ ';') (closes : Char → Bool) :
    mode.after closes c ≠ .comment := by
  cases mode with
  | code =>
    have other : c ≠ ';' := by simpa [Mode.inString] using starts
    by_cases quote : c = '\x22' <;> simp [Mode.after, quote, other]
  | string =>
    by_cases backslash : c = '\\'
    · simp [Mode.after, backslash]
    · by_cases quote : c = '\x22' <;> simp [Mode.after, backslash, quote]
  | escape => simp [Mode.after]
  | comment => exact (outside rfl).elim

theorem splitAfterComment_cons (c : Char) (rest : List Char) :
    splitAfterComment mode (c :: rest) =
      (c :: (splitAfterComment (mode.after (· == '\n') c) rest).1,
        (splitAfterComment (mode.after (· == '\n') c) rest).2) := by
  rw [splitAfterComment, if_neg fun inside => outside inside.1]

/-- Outside comments, a character that is not part of a string is met in code. -/
theorem Mode.eq_code (plain : ¬(mode.inString || decide (c = '\x22')) = true) :
    mode = .code ∧ c ≠ '\x22' := by
  cases mode <;> simp_all [Mode.inString]

end

/-- A character of a string starts no comment. -/
theorem Mode.inString_or_ne {mode : Mode} (string : (mode.inString || decide (c = '\x22')) = true) :
    mode.inString = true ∨ c ≠ ';' := by
  rw [Bool.or_eq_true, decide_eq_true_eq] at string
  rcases string with inside | rfl
  · exact .inl inside
  · exact .inr (by decide)

/-- Outside comments, a character that is not part of a string and starts no comment is code, and so is
what follows. -/
theorem Mode.code_stays {mode : Mode} (outside : mode ≠ .comment)
    (plain : ¬(mode.inString || decide (c = '\x22')) = true) (other : c ≠ ';') :
    mode = .code ∧ c ≠ '\x22' ∧ (∀ closes, Mode.code.after closes c = .code) ∧
      Mode.code.part c = .code := by
  obtain ⟨rfl, quote⟩ := Mode.eq_code outside plain
  exact ⟨rfl, quote, by simp [after, quote, other], by simp [part, quote, other]⟩

/-- Up to the end of its line, everything behind a semicolon belongs to the comment. -/
theorem partsFrom_commentLine (text : List Char) :
    partsFrom (· == '\n') .comment (splitAfterComment .comment text).1 =
      (splitAfterComment .comment text).1.map fun c => (c, .comment) := by
  induction text with
  | nil => rfl
  | cons c rest ih =>
    by_cases feed : c = '\n'
    · simp [splitAfterComment, feed, partsFrom, Mode.part]
    · simp [splitAfterComment, feed, partsFrom, Mode.part, Mode.after, ih]

/-- The characters of a text, each with what it belongs to for the highlighter: up to the end of the
line of the first comment this is what it belongs to for the validator, and all behind it belongs to
the comment. -/
def highlightedParts (mode : Mode) (text : List Char) : List (Char × Part) :=
  partsFrom (· == '\n') mode (splitAfterComment mode text).1 ++
    (splitAfterComment mode text).2.map fun c => (c, .comment)

theorem highlightedParts_cons (outside : mode ≠ .comment) (c : Char) (rest : List Char) :
    highlightedParts mode (c :: rest) =
      (c, mode.part c) :: highlightedParts (mode.after (· == '\n') c) rest := by
  rw [highlightedParts, splitAfterComment_cons outside]
  rfl

theorem highlightedParts_comment (text : List Char) :
    highlightedParts .comment text = text.map fun c => (c, .comment) := by
  rw [highlightedParts, partsFrom_commentLine, ← List.map_append, splitAfterComment_append]

theorem parts_mutedFrom (outside : mode ≠ .comment) (opened : List Bracket) (text : List Char) :
    (mutedFrom mode opened text).flatMap Segment.parts = highlightedParts mode text := by
  fun_induction mutedFrom mode opened text with
  | case1 => rfl
  | case2 mode opened c rest next string ih =>
    have starts := Mode.inString_or_ne string
    have part : mode.part c = .string := by
      cases mode <;> simp_all [Mode.part, Mode.inString]
    have same : next = mode.after (· == '\n') c := Mode.after_congr outside _ _ c
    rw [List.flatMap_cons, ih (Mode.after_ne_comment outside starts _), same,
      highlightedParts_cons outside, part]
    rfl
  | case3 mode opened rest code =>
    obtain ⟨rfl, -⟩ := Mode.eq_code outside code
    rw [highlightedParts_cons outside]
    change _ = _ :: highlightedParts .comment rest
    rw [highlightedParts_comment]
    simp [Segment.parts, Paint.part, Mode.part]
  | case4 mode opened c rest next code other bracket opens ih =>
    obtain ⟨rfl, -, stays, part⟩ := Mode.code_stays outside code other
    have same : next = .code := stays _
    rw [List.flatMap_cons, ih (by simp [same]), same, highlightedParts_cons outside, part, stays]
    rfl
  | case5 mode opened c rest next code other bracket closes opens ih =>
    obtain ⟨rfl, -, stays, part⟩ := Mode.code_stays outside code other
    have same : next = .code := stays _
    have painted : ∀ paint, paint = .plain ∨ paint = .mismatched →
        Segment.parts ⟨[c], paint⟩ = [(c, .code)] := by
      rintro paint (rfl | rfl) <;> rfl
    rw [List.flatMap_cons, ih (by simp [same]), same, highlightedParts_cons outside, part, stays,
      painted _ (ite_eq_or_eq _ _ _)]
    rfl
  | case6 mode opened c rest next code other closes opens ih =>
    obtain ⟨rfl, -, stays, part⟩ := Mode.code_stays outside code other
    have same : next = .code := stays _
    rw [List.flatMap_cons, ih (by simp [same]), same, highlightedParts_cons outside, part, stays]
    rfl

/-! ### Brackets that do not match -/

/-- Whether the verdict on the text up to the end of the line of its first comment is what the segments
show: the first bracket that does not match is the one that is named, or there is none. -/
def Shows (segments : List Segment) (offset : Nat) (verdict : Verdict) : Prop :=
  match verdict with
  | .unmatched bracket place => ∃ distance, place = offset + distance ∧
      FirstMismatch segments bracket distance
  | .valid | .incomplete => ∀ segment ∈ segments, segment.paint ≠ .mismatched

theorem Shows.cons {segment : Segment} (matching : segment.paint ≠ .mismatched)
    (shows : Shows segments (offset + byteLength segment.text) verdict) :
    Shows (segment :: segments) offset verdict := by
  cases verdict with
  | unmatched bracket place =>
    obtain ⟨distance, rfl, before, after, rfl, rfl, none⟩ := shows
    refine ⟨_, ?_, segment :: before, after, rfl, rfl, List.forall_mem_cons.2 ⟨matching, none⟩⟩
    rw [List.flatMap_cons, byteLength_append, Nat.add_assoc]
  | valid => exact List.forall_mem_cons.2 ⟨matching, shows⟩
  | incomplete => exact List.forall_mem_cons.2 ⟨matching, shows⟩

theorem shows_mismatch (bracket : Bracket) (segments : List Segment) (offset : Nat) :
    Shows (⟨[bracket.closeChar], .mismatched⟩ :: segments) offset (.unmatched bracket offset) :=
  ⟨0, rfl, [], segments, rfl, rfl, List.forall_mem_nil _⟩

theorem Shows.of_named_nothing (nothing : ∀ bracket place, verdict ≠ .unmatched bracket place)
    (matching : ∀ segment ∈ segments, segment.paint ≠ .mismatched) :
    Shows segments offset verdict := by
  cases verdict with
  | unmatched bracket place => exact (nothing bracket place rfl).elim
  | valid => exact matching
  | incomplete => exact matching

theorem validateFrom_nil_ne (offset : Nat) (mode : Mode) (opened : List Bracket) (bracket : Bracket)
    (place : Nat) : validateFrom offset mode opened [] ≠ .unmatched bracket place := by
  rw [validateFrom]
  split <;> simp

/-- Outside code, the validator skips every character. -/
theorem validateFrom_skip (outside : mode ≠ .code) (offset : Nat) (opened : List Bracket) (c : Char)
    (rest : List Char) : validateFrom offset mode opened (c :: rest) =
      validateFrom (offset + c.utf8Size) (mode.after (· == '\n') c) opened rest := by
  rw [validateFrom.eq_def offset mode opened (c :: rest)]
  exact if_neg outside

/-- The validator skips the characters of strings, their quotes included. -/
theorem validateFrom_string (outside : mode ≠ .comment)
    (string : (mode.inString || decide (c = '\x22')) = true) (offset : Nat) (opened : List Bracket)
    (rest : List Char) : validateFrom offset mode opened (c :: rest) =
      validateFrom (offset + c.utf8Size) (mode.after (· == '\n') c) opened rest := by
  by_cases code : mode = .code
  · subst code
    obtain rfl : c = '\x22' := by simpa [Mode.inString] using string
    rfl
  · exact validateFrom_skip code offset opened c rest

theorem validateFrom_open (bracket : Bracket) (offset : Nat) (opened : List Bracket)
    (rest : List Char) : validateFrom offset .code opened (bracket.openChar :: rest) =
      validateFrom (offset + bracket.openChar.utf8Size) .code (bracket :: opened) rest := by
  cases bracket <;> rfl

/-- A closing bracket closes the innermost open one, if they match. -/
theorem validateFrom_close (bracket : Bracket) (offset : Nat) (opened : List Bracket)
    (rest : List Char) : validateFrom offset .code opened (bracket.closeChar :: rest) =
      if opened.head? = some bracket then
        validateFrom (offset + bracket.closeChar.utf8Size) .code opened.tail rest
      else .unmatched bracket offset := by
  cases opened with
  | nil => cases bracket <;> rfl
  | cons innermost outer =>
    simp only [List.head?_cons, Option.some_inj]
    cases bracket <;> rfl

/-- In a comment, the validator names no bracket up to the end of the line. -/
theorem validateFrom_commentLine (offset : Nat) (opened : List Bracket) (text : List Char)
    (bracket : Bracket) (place : Nat) :
    validateFrom offset .comment opened (splitAfterComment .comment text).1 ≠
      .unmatched bracket place := by
  induction text generalizing offset with
  | nil => exact validateFrom_nil_ne _ _ _ _ _
  | cons c rest ih =>
    rw [splitAfterComment]
    by_cases feed : c = '\n'
    · rw [if_pos ⟨rfl, feed⟩, validateFrom_skip (by decide)]
      exact validateFrom_nil_ne _ _ _ _ _
    · have stays : Mode.comment.after (· == '\n') c = .comment := by simp [Mode.after, feed]
      rw [if_neg fun ends => feed ends.2]
      dsimp only
      rw [validateFrom_skip (by decide), stays]
      exact ih _

/-- What the validator names in the text up to the end of the line of its first comment is the first
bracket that the highlighter marks. -/
theorem shows_mutedFrom (outside : mode ≠ .comment) (offset : Nat) (opened : List Bracket)
    (text : List Char) : Shows (mutedFrom mode opened text) offset
      (validateFrom offset mode opened (splitAfterComment mode text).1) := by
  fun_induction mutedFrom mode opened text generalizing offset with
  | case1 => exact .of_named_nothing (validateFrom_nil_ne _ _ _) (List.forall_mem_nil _)
  | case2 mode opened c rest next string ih =>
    have starts := Mode.inString_or_ne string
    have same : next = mode.after (· == '\n') c := Mode.after_congr outside _ _ c
    have later := ih (same ▸ Mode.after_ne_comment outside starts _) (offset + c.utf8Size)
    rw [splitAfterComment_cons outside, validateFrom_string outside string]
    exact .cons nofun (same ▸ later)
  | case3 mode opened rest code =>
    -- The highlighter stops here, and up to the end of the line the validator names nothing.
    obtain ⟨rfl, -⟩ := Mode.eq_code outside code
    rw [splitAfterComment_cons outside]
    exact .of_named_nothing (validateFrom_commentLine _ opened rest)
      (List.forall_mem_singleton.2 nofun)
  | case4 mode opened c rest next code other bracket opens ih =>
    obtain ⟨rfl, quote, stays, -⟩ := Mode.code_stays outside code other
    have later := ih (by simp [next, stays]) (offset + c.utf8Size)
    obtain rfl := Bracket.ofOpen?_eq_some.1 opens
    rw [splitAfterComment_cons outside, stays, validateFrom_open]
    simp only [next, stays] at later ⊢
    exact .cons nofun later
  | case5 mode opened c rest next code other bracket closes opens ih =>
    obtain ⟨rfl, quote, stays, -⟩ := Mode.code_stays outside code other
    have later := ih (by simp [next, stays]) (offset + c.utf8Size)
    obtain rfl := Bracket.ofClose?_eq_some.1 closes
    rw [splitAfterComment_cons outside, stays, validateFrom_close]
    simp only [next, stays] at later ⊢
    -- Both look at the innermost open bracket only; the validator does not go on if it is another.
    by_cases matching : opened.head? = some bracket
    · rw [if_pos matching, if_pos matching]
      exact .cons nofun later
    · rw [if_neg matching, if_neg matching]
      exact shows_mismatch _ _ _
  | case6 mode opened c rest next code other closes opens ih =>
    obtain ⟨rfl, quote, stays, -⟩ := Mode.code_stays outside code other
    have later := ih (by simp [next, stays]) (offset + c.utf8Size)
    rw [splitAfterComment_cons outside, stays, validateFrom_plain ⟨opens, closes, quote, other⟩]
    simp only [next, stays] at later ⊢
    exact .cons nofun later

/-! ### Texts -/

/-- The segments of a text, whatever the cursor is, apart from the pairs of brackets. -/
theorem muted_segmentsOf (text : List Char) (cursor : Nat) :
    (segmentsOf text cursor).map Segment.muted = mutedFrom .code [] text :=
  mutedSegments_paintFrom (List.forall_mem_nil _)

@[simp]
theorem Paint.muted_eq_mismatched {paint : Paint} :
    paint.muted = .mismatched ↔ paint = .mismatched := by
  cases paint <;> simp [muted]

theorem Segment.parts_muted (segment : Segment) : segment.muted.parts = segment.parts := by
  obtain ⟨text, paint⟩ := segment
  cases paint <;> rfl

theorem FirstMismatch.of_muted {segments : List Segment}
    (first : FirstMismatch (segments.map Segment.muted) bracket offset) :
    FirstMismatch segments bracket offset := by
  obtain ⟨before, after, same, rfl, none⟩ := first
  obtain ⟨before, rest, rfl, rfl, here⟩ := List.map_eq_append_iff.1 same
  obtain ⟨⟨text, paint⟩, after, rfl, named, rfl⟩ := List.map_eq_cons_iff.1 here
  obtain ⟨rfl, mismatched⟩ := Segment.mk.inj named
  obtain rfl := Paint.muted_eq_mismatched.1 mismatched
  refine ⟨before, after, rfl, ?_, fun segment member red => ?_⟩
  · rw [List.flatMap_map]
    rfl
  · exact none segment.muted (List.mem_map_of_mem member) (Paint.muted_eq_mismatched.2 red)

theorem Shows.of_muted {segments : List Segment}
    (shows : Shows (segments.map Segment.muted) offset verdict) : Shows segments offset verdict := by
  have unmarked (matching : ∀ segment ∈ segments.map Segment.muted, segment.paint ≠ .mismatched) :
      ∀ segment ∈ segments, segment.paint ≠ .mismatched := fun segment member red =>
    matching segment.muted (List.mem_map_of_mem member) (Paint.muted_eq_mismatched.2 red)
  cases verdict with
  | unmatched bracket place =>
    obtain ⟨distance, rfl, first⟩ := shows
    exact ⟨distance, rfl, first.of_muted⟩
  | valid => exact unmarked shows
  | incomplete => exact unmarked shows

theorem FirstMismatch.exists_mismatched (first : FirstMismatch segments bracket offset) :
    ∃ segment ∈ segments, segment.paint = .mismatched := by
  obtain ⟨before, after, rfl, -⟩ := first
  exact ⟨_, List.mem_append_right before List.mem_cons_self, rfl⟩

theorem Shows.exists_mismatched_iff (shows : Shows segments offset verdict) :
    (∃ segment ∈ segments, segment.paint = .mismatched) ↔
      ∃ bracket place, verdict = .unmatched bracket place := by
  cases verdict with
  | unmatched bracket place =>
    obtain ⟨distance, -, first⟩ := shows
    exact iff_of_true first.exists_mismatched ⟨_, _, rfl⟩
  | valid => exact iff_of_false (fun ⟨segment, member, red⟩ => shows segment member red) nofun
  | incomplete => exact iff_of_false (fun ⟨segment, member, red⟩ => shows segment member red) nofun

/-- Cut a text behind the line of its first comment. Up to there, the highlighter splits it into
strings, comment and code as the validator does, and it takes all that is behind for a part of the
comment. It marks a closing bracket just if the validator rejects the text up to the cut. The validator
rejects the whole text then too, and the first bracket that is marked is the one that it names, at its
offset. If nothing is behind the cut, this is so for the text itself. -/
theorem highlighter_follows_validator (text : List Char) (cursor : Nat)
    (cut : splitAfterComment .code text = (line, behind)) :
    text = line ++ behind ∧
      (segmentsOf text cursor).flatMap Segment.parts =
        partsFrom (· == '\n') .code line ++ behind.map (fun c => (c, .comment)) ∧
      ((∃ segment ∈ segmentsOf text cursor, segment.paint = .mismatched) ↔
        ∃ bracket offset, validate line = .unmatched bracket offset) ∧
      ∀ bracket offset, validate line = .unmatched bracket offset →
        validate text = .unmatched bracket offset ∧
          FirstMismatch (segmentsOf text cursor) bracket offset := by
  have outside : Mode.code ≠ .comment := by decide
  have whole := splitAfterComment_append .code text
  have parts := parts_mutedFrom outside [] text
  have shows := shows_mutedFrom outside 0 [] text
  rw [cut] at whole
  rw [highlightedParts, cut, ← muted_segmentsOf text cursor, List.flatMap_map] at parts
  rw [cut, ← muted_segmentsOf text cursor] at shows
  refine ⟨whole.symm, ?_, shows.of_muted.exists_mismatched_iff, fun bracket offset rejected => ?_⟩
  · simpa only [Segment.parts_muted] using parts
  · have first := shows.of_muted
    rw [← validate, rejected] at first
    obtain ⟨distance, rfl, first⟩ := first
    rw [Nat.zero_add] at rejected ⊢
    rw [← whole]
    exact ⟨validateFrom_append_of_unmatched rejected behind, whole ▸ first⟩

/-- Quoted brackets and the escaped quote count for neither, and nothing is behind the comment. -/
theorem highlighter_follows_validator_escape :
    splitAfterComment .code "(\"\\\")\" ] ;)".toList = ("(\"\\\")\" ] ;)".toList, []) ∧
      validate "(\"\\\")\" ] ;)".toList = .unmatched .square 7 ∧
      FirstMismatch (segmentsOf "(\"\\\")\" ] ;)".toList 1) .square 7 := by
  have cut : splitAfterComment .code "(\"\\\")\" ] ;)".toList =
      ("(\"\\\")\" ] ;)".toList, []) := by decide
  have rejected : validate "(\"\\\")\" ] ;)".toList = .unmatched .square 7 := by decide
  obtain ⟨-, -, -, first⟩ := highlighter_follows_validator _ 1 cut
  exact ⟨cut, first _ _ rejected⟩

/-- A bracket on a line behind a comment can be the first that does not match for the validator, and
the highlighter does not mark it. -/
theorem mismatch_behind_comment_unmarked :
    validate ";\n)".toList = .unmatched .round 2 ∧
      segmentsOf ";\n)".toList 0 = [⟨";\n)".toList, .comment⟩] ∧
      ¬∃ segment ∈ segmentsOf ";\n)".toList 0, segment.paint = .mismatched := by
  decide

end MiniLisp
