import MiniLisp.Proofs.Console.Colours
import MiniLisp.Proofs.Console.Replacement

/-! What the highlighter returns. It is the segments of the line, each with its escapes, and each has the
colour that it should have. The scan of a line, the segments painted so far and the text painted so far are
followed together, one character at a time. -/

namespace MiniLisp

/-! ### The segments painted so far -/

/-- The segments of some characters are one for each, with the colours that they should have, and the
brackets that are open are noted with their places and offsets. -/
structure Faithful (cursor : Nat) (done : List Char) (opened : List OpenBracket)
    (segments : Array Segment) : Prop where
  texts : segments.toList.map Segment.text = done.map fun c => [c]
  coloured : Coloured cursor done (segments.toList.map Segment.paint)
  stacked : OpenStack (rolesOf done) (opened.map fun opening => (opening.place, opening.bracket))
  offsets : ∀ opening ∈ opened, opening.offset = byteLength (done.take opening.place)

theorem texts_repaint (segments : Array Segment) (place : Nat) (paint : Paint) :
    (repaint segments place paint).toList.map Segment.text = segments.toList.map Segment.text := by
  rw [repaint, Array.toList_modify]
  refine List.ext_getElem? fun index => ?_
  rw [List.getElem?_map, List.getElem?_map, List.getElem?_modify]
  by_cases here : place = index <;> simp [here, Function.comp_def]

theorem paints_repaint (segments : Array Segment) (place : Nat) (paint : Paint) :
    (repaint segments place paint).toList.map Segment.paint =
      (segments.toList.map Segment.paint).set place paint := by
  rw [repaint, Array.toList_modify]
  refine List.ext_getElem? fun index => ?_
  rw [List.getElem?_map, List.getElem?_modify, List.getElem?_set, List.getElem?_map]
  by_cases here : place = index
  · subst here
    by_cases inside : place < segments.size <;> simp [inside]
  · simp [here]

/-- A pair gets the colours of a pair. -/
theorem pairColoured_closingPaints {opening : OpenBracket}
    (painted : closingPaints cursor offset closing (some opening) = (own, other))
    (first_paint : paints[first]? = some other) (second_paint : paints[second]? = some own)
    (first_offset : opening.offset = byteLength (line.take first))
    (second_offset : offset = byteLength (line.take second)) :
    PairColoured cursor line paints first second opening.bracket closing := by
  subst second_offset
  simp only [closingPaints, first_offset] at painted
  constructor
  · intro apart
    rw [if_neg apart] at painted
    cases painted
    exact ⟨first_paint, second_paint⟩
  · intro same near
    rw [if_pos same, if_pos near] at painted
    cases painted
    exact ⟨first_paint, second_paint⟩
  · intro same far
    rw [if_pos same, if_neg far] at painted
    cases painted
    exact ⟨first_paint, second_paint⟩

namespace Faithful

variable {cursor : Nat} {done : List Char} {opened : List OpenBracket} {segments : Array Segment}
  {c : Char}

theorem nil (cursor : Nat) : Faithful cursor [] [] #[] where
  texts := rfl
  coloured := .nil cursor
  stacked := .nil
  offsets := List.forall_mem_nil _

theorem size (faithful : Faithful cursor done opened segments) : segments.size = done.length := by
  simpa using congrArg List.length faithful.texts

/-- The first segments spell the first characters. -/
theorem spells (faithful : Faithful cursor done opened segments) (count : Nat) :
    (segments.toList.take count).flatMap Segment.text = done.take count := by
  rw [List.flatMap_def, List.map_take, faithful.texts, ← List.map_take, ← List.flatMap_def]
  exact List.flatMap_singleton' _

theorem spells_all (faithful : Faithful cursor done opened segments) :
    segments.toList.flatMap Segment.text = done := by
  have texts := faithful.spells segments.size
  rwa [← Array.length_toList, List.take_length, Array.length_toList, faithful.size,
    List.take_length] at texts

theorem toList_eq (faithful : Faithful cursor done opened segments) :
    segments.toList = List.zipWith (fun c paint => ⟨[c], paint⟩) done
      (segments.toList.map Segment.paint) := by
  have apart : ∀ all : List Segment,
      all = List.zipWith Segment.mk (all.map Segment.text) (all.map Segment.paint) := by
    intro all
    rw [List.zipWith_map, List.zipWith_self, List.map_id']
  calc segments.toList
    _ = List.zipWith Segment.mk (done.map fun c => [c]) (segments.toList.map Segment.paint) := by
      rw [← faithful.texts]
      exact apart _
    _ = _ := List.zipWith_map_left

/-- What is noted of the open brackets stays right when the line goes on. -/
theorem offsets_append (faithful : Faithful cursor done opened segments) (more : List Char) :
    ∀ opening ∈ opened, opening.offset = byteLength ((done ++ more).take opening.place) := by
  intro opening member
  have inside := faithful.stacked.nested.1 _ (List.mem_map_of_mem member)
  rw [length_rolesOf] at inside
  rw [List.take_append_of_le_length (Nat.le_of_lt inside)]
  exact faithful.offsets opening member

/-- A character that closes no bracket. -/
theorem push (faithful : Faithful cursor done opened segments)
    (grown : rolesOf (done ++ [c]) = rolesOf done ++ [role])
    (none : ∀ first opening closing, ¬ClosedBy (rolesOf done) role first opening closing)
    (stacked : OpenStack (rolesOf done ++ [role])
      (opened'.map fun opening => (opening.place, opening.bracket)))
    (offsets : ∀ opening ∈ opened',
      opening.offset = byteLength ((done ++ [c]).take opening.place)) :
    Faithful cursor (done ++ [c]) opened' (segments.push ⟨[c], role.lone⟩) where
  texts := by simp [faithful.texts]
  coloured := by simpa using faithful.coloured.concat_lone grown none
  stacked := grown ▸ stacked
  offsets := offsets

/-- A bracket that closes another one. -/
theorem close (faithful : Faithful cursor done (opening :: outer) segments)
    (grown : rolesOf (done ++ [c]) = rolesOf done ++ [.closing closing])
    (painted : closingPaints cursor (byteLength done) closing (some opening) = (own, other)) :
    Faithful cursor (done ++ [c]) outer
      (repaint (segments.push ⟨[c], own⟩) opening.place other) where
  texts := by simp [texts_repaint, faithful.texts]
  coloured := by
    have innermost := faithful.stacked.head_iff.2 rfl
    have inside : opening.place < (rolesOf done).length :=
      faithful.stacked.nested.1 (opening.place, opening.bracket) List.mem_cons_self
    have size := faithful.size
    rw [length_rolesOf] at inside
    rw [paints_repaint, Array.toList_push, List.map_append]
    refine faithful.coloured.concat_closing grown innermost ?_
    refine pairColoured_closingPaints painted ?_ ?_ ?_ ?_
    · rw [List.getElem?_set_self (by simp; omega)]
    · rw [List.getElem?_set_ne (by omega), ← size]
      simp
    · exact faithful.offsets_append [c] opening List.mem_cons_self
    · simp
  stacked := grown ▸ faithful.stacked.closing closing
  offsets opening' member := faithful.offsets_append [c] opening' (List.mem_cons_of_mem _ member)

end Faithful

/-! ### One character after the other -/

/-- A comment starts at a semicolon outside of strings. -/
theorem Mode.part_eq_comment {mode : Mode} (outside : mode ≠ .comment) :
    mode.part c = .comment ↔ (!mode.inString && decide (c = ';')) = true := by
  cases mode with
  | comment => exact (outside rfl).elim
  | code =>
    by_cases semicolon : c = ';'
    · subst semicolon
      decide
    · by_cases quote : c = '\x22' <;> simp [part, inString, quote, semicolon]
  | string => simp [part, inString]
  | escape => simp [part, inString]

/-- How far the highlighter is after some characters without a comment in them: which brackets are open,
which segments there are, and what is painted. -/
structure Reached (cursor : Nat) (done : List Char) (opened : List OpenBracket)
    (segments : Array Segment) (painting : Painting) : Prop where
  outside : Mode.behind done ≠ .comment
  mode : painting.mode = .behind done
  offset : painting.offset = byteLength done
  faithful : Faithful cursor done opened segments
  inPlace : InPlace painting.painted painting.opened opened segments.toList
  steps : done.foldlM (Painting.next? cursor) .start = some painting
  /-- The segments of a line that starts so are those of the rest, from here on. -/
  segmented : ∀ todo, paintFrom cursor 0 .code [] #[] (done ++ todo) =
    paintFrom cursor (byteLength done) (.behind done) opened segments todo
  /-- A line that starts so is painted like the rest, from here on. -/
  finishing : ∀ todo, Painting.start.finish? cursor (done ++ todo) = painting.finish? cursor todo

namespace Reached

variable {cursor : Nat} {done : List Char} {opened : List OpenBracket} {segments : Array Segment}
  {painting : Painting} {c : Char}

theorem nil (cursor : Nat) : Reached cursor [] [] #[] .start where
  outside := nofun
  mode := rfl
  offset := rfl
  faithful := .nil cursor
  inPlace := .nil
  steps := rfl
  segmented _ := rfl
  finishing _ := rfl

/-- One more character, which starts no comment. -/
theorem next (reached : Reached cursor done opened segments painting)
    (other : (Mode.behind done).part c ≠ .comment)
    (painted : painting.next? cursor c = some painting')
    (mode : painting'.mode = painting.mode.after (fun _ => false) c)
    (offset : painting'.offset = painting.offset + c.utf8Size)
    (faithful : Faithful cursor (done ++ [c]) opened' segments')
    (inPlace : InPlace painting'.painted painting'.opened opened' segments'.toList)
    (segmented : ∀ todo,
      paintFrom cursor (byteLength done) (.behind done) opened segments (c :: todo) =
        paintFrom cursor (byteLength done + c.utf8Size) ((Mode.behind done).after (fun _ => false) c)
          opened' segments' todo) :
    Reached cursor (done ++ [c]) opened' segments' painting' := by
  have starts := (Mode.part_eq_comment reached.outside).not.1 other
  have following : byteLength (done ++ [c]) = byteLength done + c.utf8Size := by
    simp [byteLength_append, byteLength]
  refine ⟨?_, ?_, ?_, faithful, inPlace, ?_, fun todo => ?_, fun todo => ?_⟩
  · rw [Mode.behind_concat]
    refine Mode.after_ne_comment reached.outside ?_ _
    by_cases inString : (Mode.behind done).inString = true
    · exact .inl inString
    · exact .inr (by simpa [inString] using starts)
  · rw [mode, reached.mode, Mode.behind_concat]
  · rw [offset, reached.offset, following]
  · rw [List.foldlM_append, reached.steps]
    simp [painted]
  · rw [List.append_assoc, List.singleton_append, reached.segmented, segmented, following,
      Mode.behind_concat]
  · rw [List.append_assoc, List.singleton_append, reached.finishing, Painting.finish?, reached.mode,
      if_neg starts, painted]
    rfl

/-- A character that neither opens nor closes a bracket. -/
theorem unpaired (reached : Reached cursor done opened segments painting)
    (other : (Mode.behind done).part c ≠ .comment)
    (grown : rolesOf (done ++ [c]) = rolesOf done ++ [role])
    (none : ∀ first opening closing, ¬ClosedBy (rolesOf done) role first opening closing)
    (stacked : OpenStack (rolesOf done ++ [role])
      (opened.map fun opening => (opening.place, opening.bracket)))
    (painted : painting.next? cursor c = some ((painting.move c).push ⟨[c], role.lone⟩))
    (segmented : ∀ todo,
      paintFrom cursor (byteLength done) (.behind done) opened segments (c :: todo) =
        paintFrom cursor (byteLength done + c.utf8Size) ((Mode.behind done).after (fun _ => false) c)
          opened (segments.push ⟨[c], role.lone⟩) todo) :
    Reached cursor (done ++ [c]) opened (segments.push ⟨[c], role.lone⟩)
      ((painting.move c).push ⟨[c], role.lone⟩) := by
  refine reached.next other painted rfl rfl ?_ ?_ segmented
  · exact reached.faithful.push grown none stacked (reached.faithful.offsets_append [c])
  · rw [Array.toList_push]
    exact reached.inPlace.push ⟨[c], role.lone⟩

/-- A character of a string. -/
theorem string (reached : Reached cursor done opened segments painting)
    (inside : ((Mode.behind done).inString || decide (c = '\x22')) = true) :
    Reached cursor (done ++ [c]) opened (segments.push ⟨[c], .string⟩)
      ((painting.move c).push ⟨[c], .string⟩) := by
  have part : (Mode.behind done).part c = .string := by
    have outside := reached.outside
    cases mode : Mode.behind done <;> simp_all [Mode.part, Mode.inString]
  have grown : rolesOf (done ++ [c]) = rolesOf done ++ [.string] := by
    rw [rolesOf_concat, part]
    rfl
  refine reached.unpaired (by simp [part]) grown ?_ (reached.faithful.stacked.neutral trivial) ?_ ?_
  · rintro _ _ _ ⟨⟨⟩, -⟩
  · rw [Painting.next?, reached.mode, if_pos inside]
    rfl
  · intro todo
    rw [paintFrom, if_pos inside]
    rfl

section
variable (reached : Reached cursor done opened segments painting)
  (code : Mode.behind done = .code) (part : Mode.code.part c = .code) (quote : c ≠ '\x22')
  (semicolon : c ≠ ';')
include reached code part quote semicolon

/-- A character of code that is no bracket. -/
theorem plain (opens : Bracket.ofOpen? c = none) (closes : Bracket.ofClose? c = none) :
    Reached cursor (done ++ [c]) opened (segments.push ⟨[c], .plain⟩)
      ((painting.move c).push ⟨[c], .plain⟩) := by
  have grown : rolesOf (done ++ [c]) = rolesOf done ++ [.other] := by
    rw [rolesOf_concat, code, part, Part.role, opens, closes]
  refine reached.unpaired (by simp [code, part]) grown ?_
    (reached.faithful.stacked.neutral trivial) ?_ ?_
  · rintro _ _ _ ⟨⟨⟩, -⟩
  · simp [Painting.next?, reached.mode, code, Mode.inString, quote, opens, closes, Role.lone]
  · simp [paintFrom, code, Mode.inString, quote, semicolon, opens, closes, Role.lone]

/-- An opening bracket. -/
theorem opens (opens : Bracket.ofOpen? c = some bracket) :
    ∃ opened' painting',
      Reached cursor (done ++ [c]) opened' (segments.push ⟨[c], .plain⟩) painting' := by
  have size := reached.faithful.size
  have grown : rolesOf (done ++ [c]) = rolesOf done ++ [.opening bracket] := by
    rw [rolesOf_concat, code, part, Part.role, opens]
  have painted : painting.next? cursor c = some { (painting.move c).push ⟨[c], .plain⟩ with
      opened := ⟨bracket, byteLength done, byteLength painting.painted⟩ :: painting.opened } := by
    simp [Painting.next?, reached.mode, reached.offset, code, Mode.inString, quote, opens]
  refine ⟨⟨bracket, byteLength done, segments.size⟩ :: opened, _,
    reached.next (by simp [code, part]) painted rfl rfl ?_ ?_ ?_⟩
  · refine reached.faithful.push grown ?_ ?_ ?_
    · rintro _ _ _ ⟨⟨⟩, -⟩
    · simpa [size, length_rolesOf] using reached.faithful.stacked.opening bracket
    · refine List.forall_mem_cons.2 ⟨?_, reached.faithful.offsets_append [c]⟩
      simp [size]
  · obtain rfl := Bracket.ofOpen?_eq_some.1 opens
    rw [Array.toList_push]
    exact reached.inPlace.opens bracket (byteLength done)
  · simp [paintFrom, code, Mode.inString, quote, semicolon, opens]

omit part semicolon in
/-- The innermost open bracket gets its colour in place, if it has to get another one. -/
theorem exists_repainted {opening : OpenBracket} (opens : Bracket.ofOpen? c = none)
    (closes : Bracket.ofClose? c = some bracket) (open_eq : opened = opening :: outer)
    (paints : closingPaints cursor (byteLength done) bracket (some opening) = (own, other)) :
    ∃ painting', painting.next? cursor c = some painting' ∧
      painting'.mode = painting.mode.after (fun _ => false) c ∧
      painting'.offset = painting.offset + c.utf8Size ∧
      InPlace painting'.painted painting'.opened outer
        (repaint (segments.push ⟨[c], own⟩) opening.place other).toList := by
  subst open_eq
  obtain ⟨note, noted, found, bracket_eq, offset_eq⟩ : ∃ note noted,
      painting.opened = note :: noted ∧ note.bracket = opening.bracket ∧
        note.offset = opening.offset := ⟨_, _, reached.inPlace.noted_eq, rfl, rfl⟩
  have same : closingPaints cursor painting.offset bracket (some note) = (own, other) := by
    simpa [closingPaints, bracket_eq, offset_eq, reached.offset] using paints
  have pushed : InPlace ((painting.move c).push ⟨[c], own⟩).painted (note :: noted)
      (opening :: outer) (segments.push ⟨[c], own⟩).toList := by
    rw [Array.toList_push, ← found]
    exact reached.inPlace.push ⟨[c], own⟩
  have nested : ∀ further ∈ outer, further.place < opening.place := fun further member =>
    (List.pairwise_cons.1 reached.faithful.stacked.nested.2).1 _ (List.mem_map_of_mem member)
  obtain ⟨painted, replaced, repainted⟩ := pushed.repaint nested other
  by_cases unchanged : other = .plain
  · subst unchanged
    refine ⟨{ (painting.move c).push ⟨[c], own⟩ with opened := noted }, ?_, rfl, rfl, ?_⟩
    · simp [Painting.next?, reached.mode, code, Mode.inString, quote, opens, closes, found, same]
    · rw [repaint_plain (pushed.plain opening List.mem_cons_self)]
      exact pushed.tail
  · refine ⟨{ (painting.move c).push ⟨[c], own⟩ with opened := noted, painted := painted }, ?_, rfl,
      rfl, repainted⟩
    simp [Painting.next?, reached.mode, code, Mode.inString, quote, opens, closes, found, same,
      unchanged, Painting.repaint?, replaced]

/-- A closing bracket. -/
theorem closes (opens : Bracket.ofOpen? c = none) (closes : Bracket.ofClose? c = some bracket) :
    ∃ opened' segments' painting', Reached cursor (done ++ [c]) opened' segments' painting' := by
  have grown : rolesOf (done ++ [c]) = rolesOf done ++ [.closing bracket] := by
    rw [rolesOf_concat, code, part, Part.role, opens, closes]
  have stacked := reached.faithful.stacked
  have noted := reached.inPlace.noted_eq
  cases opened with
  | nil =>
    refine ⟨_, _, _, reached.unpaired (by simp [code, part]) grown ?_ (stacked.closing bracket) ?_ ?_⟩
    · rintro first opening closing ⟨-, innermost⟩
      cases stacked.head_iff.1 innermost
    · simp [Painting.next?, reached.mode, code, Mode.inString, quote, opens, closes, noted,
        closingPaints, Role.lone]
    · simp [paintFrom, code, Mode.inString, quote, semicolon, opens, closes, closingPaints,
        Role.lone]
  | cons opening outer =>
    obtain ⟨own, other, paints⟩ : ∃ own other,
      closingPaints cursor (byteLength done) bracket (some opening) = (own, other) := ⟨_, _, rfl⟩
    obtain ⟨painting', painted, mode, offset, inPlace⟩ :=
      reached.exists_repainted code quote opens closes rfl paints
    refine ⟨outer, _, painting', reached.next (by simp [code, part]) painted mode offset
      (reached.faithful.close grown paints) inPlace ?_⟩
    simp [paintFrom, code, Mode.inString, quote, semicolon, opens, closes, paints]

end

/-- Any character that starts no comment. -/
theorem step (reached : Reached cursor done opened segments painting)
    (other : (Mode.behind done).part c ≠ .comment) :
    ∃ opened' segments' painting', Reached cursor (done ++ [c]) opened' segments' painting' := by
  by_cases inside : ((Mode.behind done).inString || decide (c = '\x22')) = true
  · exact ⟨_, _, _, reached.string inside⟩
  · have semicolon : c ≠ ';' := by
      rintro rfl
      have code := (Mode.eq_code reached.outside inside).1
      exact other (by rw [code]; rfl)
    obtain ⟨code, quote, -, part⟩ := Mode.code_stays reached.outside inside semicolon
    cases opens : Bracket.ofOpen? c with
    | some bracket =>
      obtain ⟨opened', painting', reached'⟩ := reached.opens code part quote semicolon opens
      exact ⟨_, _, _, reached'⟩
    | none =>
      cases closes : Bracket.ofClose? c with
      | some bracket => exact reached.closes code part quote semicolon opens closes
      | none => exact ⟨_, _, _, reached.plain code part quote semicolon opens closes⟩

end Reached

/-! ### Lines -/

/-- A line cut in front of its first comment, given where the scan stands. -/
def splitAtComment (mode : Mode) : List Char → List Char × List Char
  | [] => ([], [])
  | c :: rest =>
    if mode.part c = .comment then ([], c :: rest)
    else
      let (front, comment) := splitAtComment (mode.after (fun _ => false) c) rest
      (c :: front, comment)

theorem splitAtComment_append (mode : Mode) (line : List Char) :
    (splitAtComment mode line).1 ++ (splitAtComment mode line).2 = line := by
  fun_induction splitAtComment mode line <;> simp_all

theorem splitAtComment_of_front (cut : (splitAtComment mode line).1 = done ++ todo) :
    splitAtComment mode done = (done, []) := by
  induction done generalizing mode line with
  | nil => rfl
  | cons d done ih =>
    cases line with
    | nil => simp [splitAtComment] at cut
    | cons c rest =>
      rw [splitAtComment] at cut
      split at cut
      · simp at cut
      · next other =>
        obtain ⟨rfl, inner⟩ := List.cons.inj cut
        rw [splitAtComment, if_neg other, ih inner]

/-- What is cut off is nothing, or it starts where the scan finds a comment. -/
theorem splitAtComment_comment (cut : (splitAtComment mode line).2 = c :: rest) :
    ((splitAtComment mode line).1.foldl (Mode.after fun _ => false) mode).part c = .comment := by
  fun_induction splitAtComment mode line with
  | case1 => cases cut
  | case2 mode d others starts =>
    cases cut
    exact starts
  | case3 mode d others other front comment found ih =>
    rw [found] at ih
    exact ih cut

/-- The highlighter gets through any text without a comment. -/
theorem Reached.exists_of_noComment (reached : Reached cursor done opened segments painting)
    (noComment : splitAtComment (.behind done) text = (text, [])) :
    ∃ opened' segments' painting', Reached cursor (done ++ text) opened' segments' painting' := by
  induction text generalizing done opened segments painting with
  | nil => exact ⟨opened, segments, painting, by simpa using reached⟩
  | cons c text ih =>
    rw [splitAtComment] at noComment
    split at noComment
    · cases noComment
    · next other =>
      obtain ⟨opened', segments', painting', further⟩ := reached.step other
      rw [← Mode.behind_concat] at noComment
      have rest : splitAtComment (.behind (done ++ [c])) text = (text, []) := by
        simpa [Prod.ext_iff] using noComment
      simpa using ih further rest

theorem reached_of_noComment (cursor : Nat) (noComment : splitAtComment .code text = (text, [])) :
    ∃ opened segments painting, Reached cursor text opened segments painting :=
  (Reached.nil cursor).exists_of_noComment noComment

/-- What is painted is that of some segments, and every bracket that is open in it is noted with its
offset in the line and with the byte at which it stands: what takes the place of this one byte takes the
place of the bracket, and of nothing else. -/
def Painting.PointsInto (painting : Painting) (segments : List Segment) : Prop :=
  painting.painted = renderAll segments ∧
    ∀ opening ∈ painting.opened, ∃ before after,
      segments = before ++ ⟨[opening.bracket.openChar], .plain⟩ :: after ∧
        opening.offset = byteLength (before.flatMap Segment.text) ∧
        ∀ replacement, Span.replace? ⟨opening.place, opening.place + 1⟩ painting.painted
          replacement = some (renderAll before ++ replacement ++ renderAll after)

namespace Reached

variable {cursor : Nat} {done : List Char} {opened : List OpenBracket} {segments : Array Segment}
  {painting : Painting}

theorem pointsInto (reached : Reached cursor done opened segments painting) :
    painting.PointsInto segments.toList := by
  refine ⟨reached.inPlace.rendered, fun note member => ?_⟩
  obtain ⟨opening, held, rfl⟩ := List.mem_map.1 (reached.inPlace.noted_eq ▸ member)
  obtain ⟨before, after, length, same, replaced⟩ := reached.inPlace.replace held
  have size : opening.bracket.openChar.utf8Size = 1 := by cases opening.bracket <;> rfl
  have start : segments.toList.take opening.place = before := by
    rw [same, ← length, List.take_left]
  refine ⟨before, after, same, ?_, fun replacement => ?_⟩
  · rw [← start, reached.faithful.spells]
    exact reached.faithful.offsets opening held
  · simpa only [start, size] using replaced replacement

theorem segmentsOf_eq (reached : Reached cursor done opened segments painting) :
    segmentsOf done cursor = segments.toList := by
  have segmented := reached.segmented []
  rw [List.append_nil] at segmented
  rw [segmentsOf, segmented, paintFrom]

/-- A comment that is left of the line is painted as a whole. -/
theorem ends (reached : Reached cursor done opened segments painting)
    (starts : ∀ c rest, comment = c :: rest → (Mode.behind done).part c = .comment) :
    let whole := segments.toList ++ if comment = [] then [] else [⟨comment, .comment⟩]
    segmentsOf (done ++ comment) cursor = whole ∧
      ∃ finished, Painting.start.finish? cursor (done ++ comment) = some finished ∧
        finished.painted = renderAll whole := by
  have rendered := reached.inPlace.rendered
  rw [reached.finishing]
  cases comment with
  | nil => simp [reached.segmentsOf_eq, Painting.finish?, rendered]
  | cons c rest =>
    have ends := (Mode.part_eq_comment reached.outside).1 (starts c rest rfl)
    obtain ⟨outside, rfl⟩ : (Mode.behind done).inString = false ∧ c = ';' := by simpa using ends
    refine ⟨?_, painting.push ⟨';' :: rest, .comment⟩, ?_, ?_⟩
    · rw [segmentsOf, reached.segmented, paintFrom]
      simp [outside]
    · rw [Painting.finish?, reached.mode, if_pos ends]
    · simp [Painting.push, rendered, renderAll]

end Reached

/-- The highlighter gives each line its colours. No replacement fails, and what it returns are the segments
of the line with their escapes, which spell the line. The first comment is one segment; of the characters
in front of it each is a segment, with the colour that it should have. Wherever the highlighter is in front
of the comment, every bracket that is open there is noted at the byte where it stands in the text painted so
far. -/
theorem highlighting_colours_the_line (line : String) (cursor : Nat) :
    let front := (splitAtComment .code line.toList).1
    let comment := (splitAtComment .code line.toList).2
    let segments := segmentsOf line.toList cursor
    highlight? line cursor = some (highlight line cursor) ∧
    highlight line cursor = String.join (segments.map Segment.render) ∧
    segments.flatMap Segment.text = line.toList ∧
    (∃ paints, Coloured cursor front paints ∧
      segments = List.zipWith (fun c paint => ⟨[c], paint⟩) front paints ++
        if comment = [] then [] else [⟨comment, .comment⟩]) ∧
    ∀ done todo, front = done ++ todo → ∃ painting,
      done.foldlM (Painting.next? cursor) .start = some painting ∧
      Painting.start.finish? cursor line.toList = painting.finish? cursor (todo ++ comment) ∧
      painting.PointsInto (segmentsOf done cursor) := by
  intro front comment segments
  have whole : front ++ comment = line.toList := splitAtComment_append .code line.toList
  have noComment (done todo : List Char) (part : front = done ++ todo) :
      splitAtComment .code done = (done, []) := splitAtComment_of_front part
  obtain ⟨opened, painted, painting, reached⟩ :=
    reached_of_noComment cursor (noComment front [] (List.append_nil front).symm)
  have starts : ∀ c rest, comment = c :: rest → (Mode.behind front).part c = .comment :=
    fun c rest cut => splitAtComment_comment cut
  obtain ⟨same, finished, finishes, rendered⟩ := reached.ends starts
  rw [whole] at same finishes
  change segments = _ at same
  have answer : highlight? line cursor = some (String.join (segments.map Segment.render)) := by
    rw [highlight?, finishes, ← ofList_renderAll, same, ← rendered]
    rfl
  have highlighted : highlight line cursor = String.join (segments.map Segment.render) := by
    rw [highlight, answer]
    rfl
  refine ⟨by rw [answer, highlighted], highlighted, ?_, ?_, ?_⟩
  · rw [← whole, same, List.flatMap_append, reached.faithful.spells_all]
    by_cases none : comment = [] <;> simp [none]
  · refine ⟨_, reached.faithful.coloured, same.trans ?_⟩
    rw [← reached.faithful.toList_eq]
  · intro done todo part
    obtain ⟨opened, painted, painting, reached⟩ := reached_of_noComment cursor (noComment done todo part)
    refine ⟨painting, reached.steps, ?_, reached.segmentsOf_eq ▸ reached.pointsInto⟩
    rw [← whole, part, List.append_assoc, reached.finishing]

/-- The outer bracket is replaced after the inner one, behind a character of two bytes. Every colour comes
up, with the code that switches it on. -/
theorem highlighting_colours_the_line_pairs :
    highlight? "\u00e9([\")\")) ;(" 9 = some
      ("\u00e9\x1b[1;34m(\x1b[0m\x1b[1;31m[\x1b[0m\x1b[32m\"\x1b[0m\x1b[32m)\x1b[0m" ++
        "\x1b[32m\"\x1b[0m\x1b[31m)\x1b[0m\x1b[34m)\x1b[0m \x1b[90m;(\x1b[0m") ∧
      (segmentsOf "\u00e9([\")\")) ;(".toList 9).flatMap Segment.text =
        "\u00e9([\")\")) ;(".toList := by
  obtain ⟨painted, -, spelled, -⟩ := highlighting_colours_the_line "\u00e9([\")\")) ;(" 9
  refine ⟨?_, spelled⟩
  rw [painted]
  decide +kernel

end MiniLisp
