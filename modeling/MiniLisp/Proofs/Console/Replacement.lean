import MiniLisp.Console.Highlight

/-! Replacements in a painted text. An opening bracket gets its colour in a text that has grown since the
bracket was noted, by characters and by escapes. Still the byte that was noted for it is the bracket: only
brackets further inside have been replaced meanwhile, and these stand behind it. -/

namespace MiniLisp

/-- The text of some segments with their escapes. -/
def renderAll (segments : List Segment) : List Char :=
  segments.flatMap fun segment => segment.render.toList

theorem renderAll_append (first second : List Segment) :
    renderAll (first ++ second) = renderAll first ++ renderAll second := List.flatMap_append

theorem renderAll_cons (segment : Segment) (segments : List Segment) :
    renderAll (segment :: segments) = segment.render.toList ++ renderAll segments := rfl

theorem renderAll_singleton (segment : Segment) : renderAll [segment] = segment.render.toList := by
  simp [renderAll]

theorem ofList_renderAll (segments : List Segment) :
    String.ofList (renderAll segments) = String.join (segments.map Segment.render) := by
  rw [← String.toList_inj, String.toList_ofList, String.toList_join, renderAll, List.flatMap_map]

/-- What is plain already is not changed by making it plain. -/
theorem repaint_plain {segments : Array Segment}
    (plain : segments.toList[place]? = some ⟨text, .plain⟩) :
    (repaint segments place .plain).toList = segments.toList := by
  rw [repaint, Array.toList_modify]
  refine List.ext_getElem? fun index => ?_
  rw [List.getElem?_modify]
  by_cases here : place = index
  · subst here
    simp [plain]
  · simp [here]

/-- The text that is painted is that of the segments, and every open bracket is noted at the byte where
its segment starts. -/
structure InPlace (painted : List Char) (noted opened : List OpenBracket) (segments : List Segment) :
    Prop where
  rendered : painted = renderAll segments
  noted_eq : noted = opened.map fun opening =>
    { opening with place := byteLength (renderAll (segments.take opening.place)) }
  plain : ∀ opening ∈ opened,
    segments[opening.place]? = some ⟨[opening.bracket.openChar], .plain⟩

namespace InPlace

variable {painted : List Char} {noted opened : List OpenBracket} {segments : List Segment}

theorem nil : InPlace [] [] [] [] := ⟨rfl, rfl, List.forall_mem_nil _⟩

/-- Another segment at the end moves nothing. -/
theorem push (inPlace : InPlace painted noted opened segments) (segment : Segment) :
    InPlace (painted ++ segment.render.toList) noted opened (segments ++ [segment]) where
  rendered := by rw [renderAll_append, renderAll_singleton, inPlace.rendered]
  noted_eq := by
    rw [inPlace.noted_eq]
    refine List.map_congr_left fun opening member => ?_
    have inside := (List.getElem?_eq_some_iff.1 (inPlace.plain opening member)).1
    rw [List.take_append_of_le_length (Nat.le_of_lt inside)]
  plain opening member := by
    have found := inPlace.plain opening member
    rw [List.getElem?_append_left (List.getElem?_eq_some_iff.1 found).1, found]

/-- An opening bracket is noted where the painted text ends before it. -/
theorem opens (inPlace : InPlace painted noted opened segments) (bracket : Bracket) (offset : Nat) :
    InPlace (painted ++ (Segment.render ⟨[bracket.openChar], .plain⟩).toList)
      (⟨bracket, offset, byteLength painted⟩ :: noted) (⟨bracket, offset, segments.length⟩ :: opened)
      (segments ++ [⟨[bracket.openChar], .plain⟩]) where
  rendered := (inPlace.push _).rendered
  noted_eq := by
    rw [List.map_cons, ← (inPlace.push _).noted_eq]
    simp [inPlace.rendered]
  plain := List.forall_mem_cons.2 ⟨by simp, (inPlace.push _).plain⟩

/-- The bracket noted last is closed. -/
theorem tail (inPlace : InPlace painted (note :: noted) (opening :: opened) segments) :
    InPlace painted noted opened segments where
  rendered := inPlace.rendered
  noted_eq := (List.cons.inj inPlace.noted_eq).2
  plain := (List.forall_mem_cons.1 inPlace.plain).2

/-- What takes the place of the byte that is noted for a bracket takes the place of its segment. -/
theorem replace (inPlace : InPlace painted noted opened segments) (held : opening ∈ opened) :
    ∃ before after, before.length = opening.place ∧
      segments = before ++ ⟨[opening.bracket.openChar], .plain⟩ :: after ∧
      ∀ replacement, Span.replace? ⟨byteLength (renderAll before),
          byteLength (renderAll before) + opening.bracket.openChar.utf8Size⟩ painted replacement =
        some (renderAll before ++ replacement ++ renderAll after) := by
  obtain ⟨inside, found⟩ := List.getElem?_eq_some_iff.1 (inPlace.plain opening held)
  obtain ⟨before, after, length, rfl⟩ : ∃ before after, before.length = opening.place ∧
      segments = before ++ ⟨[opening.bracket.openChar], .plain⟩ :: after := by
    refine ⟨segments.take opening.place, segments.drop (opening.place + 1),
      List.length_take_of_le (Nat.le_of_lt inside), ?_⟩
    rw [← found, ← List.drop_eq_getElem_cons inside, List.take_append_drop]
  have bracket : (Segment.render ⟨[opening.bracket.openChar], .plain⟩).toList =
      [opening.bracket.openChar] := String.toList_ofList
  refine ⟨before, after, length, rfl, fun replacement => ?_⟩
  rw [inPlace.rendered, renderAll_append, renderAll_cons, bracket, ← List.append_assoc]
  exact Span.replace?_append (renderAll before) [opening.bracket.openChar] (renderAll after) replacement

/-- The innermost open bracket is replaced. Nothing in front of it moves, so all others stay where they are
noted. -/
theorem repaint {segments : Array Segment}
    (inPlace : InPlace painted (note :: noted) (opening :: opened) segments.toList)
    (nested : ∀ outer ∈ opened, outer.place < opening.place) (paint : Paint) :
    ∃ painted', Span.replace? ⟨note.place, note.place + note.bracket.openChar.utf8Size⟩ painted
        (Segment.render ⟨[note.bracket.openChar], paint⟩).toList = some painted' ∧
      InPlace painted' noted opened (MiniLisp.repaint segments opening.place paint).toList := by
  obtain ⟨before, after, length, same, replaced⟩ := inPlace.replace List.mem_cons_self
  have here := (List.cons.inj inPlace.noted_eq).1
  have repainted : (MiniLisp.repaint segments opening.place paint).toList =
      before ++ ⟨[opening.bracket.openChar], paint⟩ :: after := by
    rw [MiniLisp.repaint, Array.toList_modify, same, ← length, List.modify_eq_take_drop,
      List.take_left, List.drop_left]
    rfl
  dsimp only at here
  rw [same, ← length, List.take_left] at here
  subst here
  rw [repainted]
  refine ⟨_, replaced _, ?_, ?_, ?_⟩
  · rw [renderAll_append, renderAll_cons, List.append_assoc]
  · rw [inPlace.tail.noted_eq]
    refine List.map_congr_left fun outer member => ?_
    have earlier := Nat.le_of_lt (length ▸ nested outer member)
    rw [same, List.take_append_of_le_length earlier, List.take_append_of_le_length earlier]
  · intro outer member
    have earlier := length ▸ nested outer member
    have found := inPlace.tail.plain outer member
    rw [same, List.getElem?_append_left earlier] at found
    rw [List.getElem?_append_left earlier, found]

end InPlace

end MiniLisp
