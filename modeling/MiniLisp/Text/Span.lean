/-! Places in a text. Offsets count the bytes of the UTF-8 encoding, a span is half open, and the
bytes of a joined text are the bytes of its parts. -/

namespace MiniLisp

/-- The number of bytes that the characters take in UTF-8. -/
def byteLength : List Char → Nat
  | [] => 0
  | c :: rest => c.utf8Size + byteLength rest

theorem byteLength_append (first second : List Char) :
    byteLength (first ++ second) = byteLength first + byteLength second := by
  induction first with
  | nil => simp [byteLength]
  | cons c rest ih => simp [byteLength, ih, Nat.add_assoc]

/-- The longest leading part of a text that lies within the first `count` bytes. -/
def takeBytes : Nat → List Char → List Char
  | _, [] => []
  | count, c :: rest =>
    if c.utf8Size ≤ count then c :: takeBytes (count - c.utf8Size) rest else []

/-- A cut at the end of the first part of a joined text gives back that part. -/
theorem takeBytes_append (first second : List Char) :
    takeBytes (byteLength first) (first ++ second) = first := by
  induction first with
  | nil =>
    cases second with
    | nil => rfl
    | cons c rest =>
      have := Char.utf8Size_pos c
      simp [takeBytes, byteLength]
      omega
  | cons c rest ih => simp [takeBytes, byteLength, ih]

/-- A text cut at a byte offset, unless the offset is behind its end or inside a character. -/
def cutBytes? : Nat → List Char → Option (List Char × List Char)
  | 0, text => some ([], text)
  | _ + 1, [] => none
  | count + 1, c :: rest =>
    if c.utf8Size ≤ count + 1 then
      (fun (first, second) => (c :: first, second)) <$> cutBytes? (count + 1 - c.utf8Size) rest
    else none

/-- A cut at the end of the first part of a joined text gives back both parts. -/
theorem cutBytes?_append (first second : List Char) :
    cutBytes? (byteLength first) (first ++ second) = some (first, second) := by
  induction first with
  | nil => simp [byteLength, cutBytes?]
  | cons c rest ih =>
    obtain ⟨count, same⟩ : ∃ count, byteLength (c :: rest) = count + 1 := by
      have := Char.utf8Size_pos c
      exact ⟨c.utf8Size + byteLength rest - 1, by simp only [byteLength]; omega⟩
    have within : c.utf8Size ≤ count + 1 := by rw [← same, byteLength]; omega
    have left : count + 1 - c.utf8Size = byteLength rest := by rw [← same, byteLength]; omega
    rw [same, List.cons_append, cutBytes?, if_pos within, left, ih]
    rfl

/-- A half-open range of byte offsets (`Span`). -/
structure Span where
  /-- The offset of the first byte. -/
  start : Nat
  /-- The offset after the last byte. -/
  stop : Nat
deriving DecidableEq, Repr, Inhabited

/-- A text in which other characters stand in place of those in a span, unless an end of the span is
behind the end of the text or inside a character. -/
def Span.replace? (span : Span) (text replacement : List Char) : Option (List Char) := do
  let (before, _) ← cutBytes? span.start text
  let (_, after) ← cutBytes? span.stop text
  some (before ++ replacement ++ after)

/-- The span of the middle part of a joined text is that part. -/
theorem Span.replace?_append (before middle after replacement : List Char) :
    Span.replace? ⟨byteLength before, byteLength before + byteLength middle⟩
        (before ++ middle ++ after) replacement = some (before ++ replacement ++ after) := by
  have start : cutBytes? (byteLength before) (before ++ middle ++ after) =
      some (before, middle ++ after) := by
    rw [List.append_assoc, cutBytes?_append]
  have stop : cutBytes? (byteLength before + byteLength middle) (before ++ middle ++ after) =
      some (before ++ middle, after) := by
    rw [← byteLength_append, cutBytes?_append]
  simp only [Span.replace?, start, stop]
  rfl

/-- A span is written as its two ends with two dots between them (`Span.fmt`). -/
def Span.render (span : Span) : String :=
  toString span.start ++ ".." ++ toString span.stop

end MiniLisp
