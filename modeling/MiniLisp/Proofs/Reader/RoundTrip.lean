import MiniLisp.Proofs.Reader.Derivation
import MiniLisp.Value.Printer

/-! Printing and reading. The reader makes readable values only, and the printed form of a readable
value reads as that value again: every bracket stays what it is, and the entries of a map stay in
order, repeated keys among them. Only the numbers of map literals, which tell a map from its copies,
are given anew. -/

namespace MiniLisp

/-- Values that a text can spell: constants, words, texts, the symbols among the atoms, and lists,
vectors and maps of such values. -/
inductive Readable : Value → Prop where
  | nil : Readable .nil
  | bool : Readable (.bool b)
  | num : Readable (.num n)
  | str : Readable (.str text)
  | sym {name : String} (atom : IsAtom name.toList)
      (symbolic : ∀ span, atomValue name span = .ok (.sym ⟨name⟩)) : Readable (.sym ⟨name⟩)
  | list (each : ∀ item ∈ items, Readable item) : Readable (.list items)
  | vec (each : ∀ item ∈ items, Readable item) : Readable (.vec items)
  | map {entries : Entries} (keys : ∀ entry ∈ entries, Readable entry.1)
      (values : ∀ entry ∈ entries, Readable entry.2) : Readable (.map origin entries)

/-! ### The reader makes readable values -/

theorem Shorthand.readable_name (mark : Shorthand) : Readable (.sym ⟨mark.name⟩) := by
  cases mark with
  | quote => exact .sym (@IsAtom.of_all 'q' "uote".toList rfl rfl) fun _ => rfl
  | quasiquote => exact .sym (@IsAtom.of_all 'q' "uasiquote".toList rfl rfl) fun _ => rfl
  | unquote => exact .sym (@IsAtom.of_all 'u' "nquote".toList rfl rfl) fun _ => rfl
  | spliceUnquote => exact .sym (@IsAtom.of_all 's' "plice-unquote".toList rfl rfl) fun _ => rfl
  | deref => exact .sym (@IsAtom.of_all 'd' "eref".toList rfl rfl) fun _ => rfl

theorem readable_withMeta : Readable (.sym ⟨"with-meta"⟩) :=
  .sym (@IsAtom.of_all 'w' "ith-meta".toList rfl rfl) fun _ => rfl

theorem readable_atom (atom : IsAtom text.toList) (accepted : atomValue text span = .ok value) :
    Readable value := by
  obtain ⟨-, rfl⟩ | ⟨-, rfl⟩ | ⟨-, rfl⟩ | ⟨other, ⟨unspelled, rfl⟩ | ⟨word, -, rfl⟩⟩ :=
    atomValue_eq_ok_iff.1 accepted
  · exact .bool
  · exact .bool
  · exact .nil
  · exact .sym atom fun span => atomValue_eq_ok_iff.2 (atomValue_eq_ok_iff.1 accepted)
  · exact .num

mutual

theorem Form.readable : Form first kinds value second → (∀ kind ∈ kinds, kind.IsLexical) →
    Readable value
  | .atom accepted, lexical => readable_atom (lexical _ List.mem_cons_self) accepted
  | .str, _ => .str
  | .list inside, lexical => .list (inside.readable fun kind member => lexical kind (by simp [member]))
  | .vec inside, lexical => .vec (inside.readable fun kind member => lexical kind (by simp [member]))
  | .map literal, lexical => literal.readable lexical
  | .shorthand wrapped, lexical => by
    have form := wrapped.readable fun kind member => lexical kind (by simp [member])
    refine .list ?_
    intro item member
    simp only [List.mem_cons, List.not_mem_nil, or_false] at member
    rcases member with rfl | rfl
    · exact Shorthand.readable_name _
    · exact form
  | .metadata literal carrier, lexical => by
    have map := literal.readable fun kind member => lexical kind (by simp [member])
    have form := carrier.readable fun kind member => lexical kind (by simp [member])
    refine .list ?_
    intro item member
    simp only [List.mem_cons, List.not_mem_nil, or_false] at member
    rcases member with rfl | rfl | rfl
    · exact readable_withMeta
    · exact form
    · exact map

theorem MapLiteral.readable : MapLiteral first kinds value second →
    (∀ kind ∈ kinds, kind.IsLexical) → Readable value
  | .braced inside, lexical => by
    have each := inside.readable fun kind member => lexical kind (by simp [member])
    refine .map ?_ ?_
    · intro entry member
      exact each entry.1 (Entries.mem_flat.2 ⟨entry, member, .inl rfl⟩)
    · intro entry member
      exact each entry.2 (Entries.mem_flat.2 ⟨entry, member, .inr rfl⟩)

theorem Forms.readable : Forms first kinds values second → (∀ kind ∈ kinds, kind.IsLexical) →
    ∀ value ∈ values, Readable value
  | .nil, _ => by simp
  | .cons head tail, lexical => by
    have form := head.readable fun kind member => lexical kind (by simp [member])
    have others := tail.readable fun kind member => lexical kind (by simp [member])
    intro value member
    rcases List.mem_cons.1 member with rfl | member
    · exact form
    · exact others value member

end

/-- What a text reads as is readable. -/
theorem readable_of_read (read : MiniLisp.read literals text = .ok form) : Readable form.value := by
  unfold MiniLisp.read at read
  split at read
  · cases read
  · cases read
  · next tokens _ cut =>
    have derived := parse_iff_form.1 read
    refine derived.readable ?_
    intro kind member
    obtain ⟨token, inside, rfl⟩ := List.mem_map.1 member
    exact tokensFrom_isLexical cut token inside

/-! ### Printed forms spell tokens -/

/-- A text before which every token ends that ends before spacing. -/
def Ends (text : List Char) : Prop := ∀ c rest, text = c :: rest → continuesAtom c = false

/-- Wherever it is put before a text that ends tokens, the printed text spells tokens of these kinds
and none besides. -/
def Prints (kinds : List TokenKind) (text : List Char) : Prop :=
  ∀ offset tokens rest, Ends rest → Spells (offset + byteLength text) tokens rest →
    ∃ printed, kindsOf printed = kinds ∧ Spells offset (printed ++ tokens) (text ++ rest)

theorem Ends.of_cons (stops : continuesAtom c = false) (rest : List Char) : Ends (c :: rest) := by
  intro next others same
  cases same
  exact stops

theorem Prints.nil : Prints [] [] := by
  intro offset tokens rest _ spells
  exact ⟨[], rfl, spells⟩

theorem Prints.token (lexical : TokenKind.IsLexical kind)
    (ends : ∀ rest, Ends rest → kind.EndsBefore rest) : Prints [kind] kind.spelling := by
  intro offset tokens rest apart spells
  exact ⟨[⟨kind, _⟩], rfl, .token lexical (ends rest apart) spells⟩

theorem prints_atom (atom : IsAtom text.toList) : Prints [.atom text] text.toList :=
  @Prints.token (.atom text) atom fun _ apart => apart

theorem prints_str (text : String) : Prints [.str text] (encodeLiteral text.toList) :=
  @Prints.token (.str text) trivial fun _ _ => trivial

theorem prints_closing (bracket : Bracket) : Prints [.closing bracket] [bracket.closeChar] :=
  @Prints.token (.closing bracket) trivial fun _ _ => trivial

theorem Prints.append (first : Prints kinds text) (second : Prints kinds' text')
    (apart : ∀ rest, Ends rest → Ends (text' ++ rest)) :
    Prints (kinds ++ kinds') (text ++ text') := by
  intro offset tokens rest ends spells
  rw [byteLength_append, ← Nat.add_assoc] at spells
  obtain ⟨printed', same', spells⟩ := second _ _ _ ends spells
  obtain ⟨printed, same, spells⟩ := first _ _ _ (apart rest ends) spells
  refine ⟨printed ++ printed', ?_, ?_⟩
  · rw [kindsOf, List.map_append, ← same, ← same']
  · rwa [List.append_assoc, List.append_assoc]

theorem Prints.spaced (prints : Prints kinds text) : Prints kinds (' ' :: text) := by
  intro offset tokens rest ends spells
  have moved : offset + byteLength (' ' :: text) = offset + byteLength [' '] + byteLength text := by
    simp only [byteLength, Nat.add_zero, Nat.add_assoc]
  rw [moved] at spells
  obtain ⟨printed, same, spells⟩ := prints _ _ _ ends spells
  have space : Trivia [' '] := .spacing rfl .nil
  have spelled := Spells.gap space spells
  exact ⟨printed, same, spelled⟩

/-- An opening bracket ends by itself, so what follows it may be anything. -/
theorem Prints.opened (bracket : Bracket) (prints : Prints kinds text) :
    Prints (.opening bracket :: kinds) (bracket.openChar :: text) := by
  intro offset tokens rest ends spells
  have moved : offset + byteLength (bracket.openChar :: text) =
      offset + byteLength (TokenKind.opening bracket).spelling + byteLength text := by
    simp only [TokenKind.spelling, byteLength, Nat.add_zero, Nat.add_assoc]
  rw [moved] at spells
  obtain ⟨printed, same, spells⟩ := prints _ _ _ ends spells
  exact ⟨⟨.opening bracket, _⟩ :: printed, congrArg (_ :: ·) same, .token trivial trivial spells⟩

theorem Bracket.continuesAtom_closeChar (bracket : Bracket) :
    continuesAtom bracket.closeChar = false := by
  cases bracket <;> rfl

theorem Prints.bracketed (bracket : Bracket) (prints : Prints kinds text) :
    Prints (.opening bracket :: (kinds ++ [.closing bracket]))
      (bracket.openChar :: (text ++ [bracket.closeChar])) := by
  refine (prints.append (prints_closing bracket) ?_).opened bracket
  intro rest _
  exact .of_cons bracket.continuesAtom_closeChar rest

/-- Texts with spaces between them spell the tokens of each in turn. -/
theorem prints_joinSpaced {pieces : List (List TokenKind × List Char)}
    (each : ∀ piece ∈ pieces, Prints piece.1 piece.2) :
    Prints (pieces.flatMap Prod.fst) (joinSpaced (pieces.map Prod.snd)) := by
  induction pieces with
  | nil => exact .nil
  | cons piece pieces ih =>
    have first := each piece List.mem_cons_self
    cases pieces with
    | nil => simpa [joinSpaced] using first
    | cons next pieces =>
      -- The space before the next text ends the last token of this one.
      have others := (ih fun other member => each other (List.mem_cons_of_mem _ member)).spaced
      exact first.append others fun rest _ => .of_cons rfl _

namespace Value

theorem writeEntries_eq_writeAll (entries : Entries) :
    writeEntries entries = writeAll entries.flat := by
  induction entries with
  | nil => rfl
  | cons entry entries ih =>
    simp only [writeEntries, ih, Entries.flat, List.flatMap_cons, List.cons_append,
      List.nil_append, writeAll]

end Value

/-! ### Printed forms are read again -/

/-- A value whose printed form spells tokens of a form that is this value again, whatever number
comes next. -/
def Reproduced (value : Value) : Prop :=
  ∃ kinds, Prints kinds (value.write .alone) ∧
    ∀ first, ∃ copy second, Form first kinds copy second ∧ copy.unnumbered = value.unnumbered

private theorem reproduced_pieces {items : List Value} (each : ∀ item ∈ items, Reproduced item) :
    ∃ pieces : List (List TokenKind × List Char),
      pieces.map Prod.snd = Value.writeAll items ∧ (∀ piece ∈ pieces, Prints piece.1 piece.2) ∧
        ∀ first, ∃ copies second, Forms first (pieces.flatMap Prod.fst) copies second ∧
          Value.unnumberedAll copies = Value.unnumberedAll items := by
  induction items with
  | nil => exact ⟨[], rfl, by simp, fun first => ⟨[], first, .nil, rfl⟩⟩
  | cons item items ih =>
    obtain ⟨kinds, prints, form⟩ := each item List.mem_cons_self
    obtain ⟨pieces, texts, print, forms⟩ :=
      ih fun other member => each other (List.mem_cons_of_mem _ member)
    refine ⟨(kinds, item.write .alone) :: pieces, ?_, ?_, ?_⟩
    · simp only [List.map_cons, texts, Value.writeAll]
    · intro piece member
      rcases List.mem_cons.1 member with rfl | member
      · exact prints
      · exact print piece member
    · intro first
      obtain ⟨copy, second, head, same⟩ := form first
      obtain ⟨copies, third, tail, sames⟩ := forms second
      refine ⟨copy :: copies, third, .cons head tail, ?_⟩
      simp only [Value.unnumberedAll, same, sames]

/-- The printed forms of reproduced values, one after the other, are so many forms. -/
theorem reproduced_all {items : List Value} (each : ∀ item ∈ items, Reproduced item) :
    ∃ kinds, Prints kinds (joinSpaced (Value.writeAll items)) ∧
      ∀ first, ∃ copies second, Forms first kinds copies second ∧
        Value.unnumberedAll copies = Value.unnumberedAll items := by
  obtain ⟨pieces, texts, print, forms⟩ := reproduced_pieces each
  refine ⟨pieces.flatMap Prod.fst, ?_, forms⟩
  rw [← texts]
  exact prints_joinSpaced print

theorem reproduced_atom (text : String) (atom : IsAtom text.toList)
    (accepted : atomValue text default = .ok value)
    (written : value.write .alone = text.toList) : Reproduced value := by
  refine ⟨[.atom text], ?_, fun first => ⟨value, first, .atom accepted, rfl⟩⟩
  rw [written]
  exact prints_atom atom

theorem Readable.reproduced (readable : Readable value) : Reproduced value := by
  induction readable with
  | nil => exact reproduced_atom "nil" (@IsAtom.of_all 'n' "il".toList rfl rfl) rfl rfl
  | @bool b =>
    cases b with
    | true => exact reproduced_atom "true" (@IsAtom.of_all 't' "rue".toList rfl rfl) rfl rfl
    | false => exact reproduced_atom "false" (@IsAtom.of_all 'f' "alse".toList rfl rfl) rfl rfl
  | @num n =>
    exact reproduced_atom _ (isAtom_toString n.toInt) (atomValue_toString n default)
      (by simp only [Value.write, Place.put])
  | @str text => exact ⟨[.str text], prints_str text, fun first => ⟨.str text, first, .str, rfl⟩⟩
  | sym atom symbolic => exact reproduced_atom _ atom (symbolic default) rfl
  | list each ih =>
    obtain ⟨kinds, prints, forms⟩ := reproduced_all ih
    refine ⟨_, prints.bracketed .round, fun first => ?_⟩
    obtain ⟨copies, second, inside, same⟩ := forms first
    exact ⟨.list copies, second, .list inside, by simp only [Value.unnumbered, same]⟩
  | vec each ih =>
    obtain ⟨kinds, prints, forms⟩ := reproduced_all ih
    refine ⟨_, prints.bracketed .square, fun first => ?_⟩
    obtain ⟨copies, second, inside, same⟩ := forms first
    exact ⟨.vec copies, second, .vec inside, by simp only [Value.unnumbered, same]⟩
  | @map origin entries keys values ihKeys ihValues =>
    have each : ∀ item ∈ entries.flat, Reproduced item := by
      intro item member
      obtain ⟨entry, inside, rfl | rfl⟩ := Entries.mem_flat.1 member
      · exact ihKeys entry inside
      · exact ihValues entry inside
    obtain ⟨kinds, prints, forms⟩ := reproduced_all each
    rw [← Value.writeEntries_eq_writeAll] at prints
    refine ⟨_, prints.bracketed .curly, fun first => ?_⟩
    obtain ⟨copies, second, inside, same⟩ := forms first
    obtain ⟨entries', rfl, agree⟩ := Value.exists_entries_of_unnumberedAll same
    exact ⟨_, second + 1, .map (.braced inside), by simp only [Value.unnumbered, agree]⟩

/-- A text that spells the tokens of a form reads as this form. -/
theorem read_of_form (spells : Spells 0 tokens text)
    (form : Form literals (kindsOf tokens) value second) :
    MiniLisp.read literals (String.ofList text) = .ok ⟨value, second⟩ := by
  refine read_of_tokens ?_ form
  rw [tokenize, String.toList_ofList, spells.cut]

/-- The printed form of a readable value reads as the same value, whatever number comes next. -/
theorem Readable.read (readable : Readable value) (literals : Nat) :
    ∃ form, MiniLisp.read literals value.print = .ok form ∧
      form.value.unnumbered = value.unnumbered := by
  obtain ⟨kinds, prints, forms⟩ := readable.reproduced
  obtain ⟨copy, second, form, same⟩ := forms literals
  have ends : Ends [] := by
    intro c rest absent
    cases absent
  obtain ⟨tokens, rfl, spells⟩ := prints 0 [] [] ends .nil
  rw [List.append_nil, List.append_nil] at spells
  exact ⟨⟨copy, second⟩, read_of_form spells form, same⟩

/-- What a text reads as is readable, and the printed form of a readable value reads as the same
value. -/
theorem reading_and_printing :
    (∀ literals text form, MiniLisp.read literals text = .ok form → Readable form.value) ∧
    ∀ value, Readable value → ∀ literals, ∃ form,
      MiniLisp.read literals value.print = .ok form ∧
        form.value.unnumbered = value.unnumbered :=
  ⟨fun _ _ _ read => readable_of_read read, fun _ readable literals => readable.read literals⟩

/-- A map with one key twice, a text that needs escapes, and the least word. -/
theorem reading_and_printing_repeated_key :
    ∃ form, MiniLisp.read 5 (Value.print (.map (.made 0)
        [(.str "\"\\\n;", .vec [.num (-9223372036854775808)]), (.str "\"\\\n;", .list [.nil])])) =
          .ok form ∧
      form.value.unnumbered = .map (.literal 0)
        [(.str "\"\\\n;", .vec [.num (-9223372036854775808)]), (.str "\"\\\n;", .list [.nil])] ∧
      Readable form.value := by
  have word : ∀ item ∈ [Value.num (-9223372036854775808)], Readable item := by
    simp [Readable.num]
  have absent : ∀ item ∈ [Value.nil], Readable item := by
    simp [Readable.nil]
  have readable : Readable (.map (.made 0)
      [(.str "\"\\\n;", .vec [.num (-9223372036854775808)]),
        (.str "\"\\\n;", .list [.nil])]) := by
    refine .map ?_ ?_
    · simp [Readable.str]
    · simp [Readable.vec word, Readable.list absent]
  obtain ⟨sound, complete⟩ := reading_and_printing
  obtain ⟨form, read, same⟩ := complete _ readable 5
  exact ⟨form, read, same, sound _ _ _ read⟩

end MiniLisp
