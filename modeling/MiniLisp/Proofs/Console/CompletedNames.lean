import MiniLisp.Console.Completion
import MiniLisp.Proofs.Scope.Outward
import MiniLisp.Proofs.Text.ByteOrder
import MiniLisp.Proofs.Token.Layout

/-! Completion of names. Only the text before the cursor is cut into tokens, and a name is completed if
this text ends with an atom. In a line that can be cut as a whole, these are the places inside an atom
and at its end. All names that go on as the atom does are offered, each one once and in the order of
their bytes, if they stand for a special form or are bound in a scope that can be seen. -/

namespace MiniLisp

/-! ### Names in rising order -/

theorem Names.insert_pairwise (sorted : names.Pairwise (· < ·)) :
    (Names.insert name names).Pairwise (· < ·) := by
  induction names with
  | nil => exact List.pairwise_singleton _ _
  | cons first rest ih =>
    obtain ⟨later, rising⟩ := List.pairwise_cons.1 sorted
    rw [Names.insert]
    split
    · next less =>
      refine List.pairwise_cons.2 ⟨List.forall_mem_cons.2 ⟨less, ?_⟩, sorted⟩
      exact fun other member => String.lt_trans less (later other member)
    · next notLess =>
      split
      · exact sorted
      · next apart =>
        have less : first < name :=
          ((lt_trichotomy name first).resolve_left notLess).resolve_left apart
        refine List.pairwise_cons.2 ⟨?_, ih rising⟩
        intro other member
        rcases Names.mem_insert.1 member with rfl | member
        · exact less
        · exact later other member

theorem Names.sort_pairwise (names : List String) : (Names.sort names).Pairwise (· < ·) := by
  induction names with
  | nil => exact List.Pairwise.nil
  | cons name names ih => exact Names.insert_pairwise ih

theorem SpecialForm.mem_names {name : String} :
    name ∈ SpecialForm.names ↔ ∃ form : SpecialForm, form.name = name := by
  rw [SpecialForm.names, Names.mem_sort, List.mem_map]
  exact exists_congr fun form => and_iff_right (SpecialForm.mem_all form)

/-- The name of a special form, or one bound in a scope that can be seen. -/
def Usable (store : Store) (scope : Nat) (name : String) : Prop :=
  (∃ form : SpecialForm, form.name = name) ∨
    ∃ value, (EvalM.lookup scope ⟨name⟩).outcome store = .ok value

theorem mem_usableNames : name ∈ usableNames store.scopes scope ↔ Usable store scope name := by
  rw [usableNames, Names.mem_sort, List.mem_append, Scopes.mem_visible, SpecialForm.mem_names, Usable]
  simp only [EvalM.outcome_lookup_eq_ok_iff, Option.isSome_iff_exists]
  exact or_comm

/-! ### The atom before the cursor -/

/-- A text ends with an atom: this is the last of its tokens, and nothing follows it. -/
def EndsWithAtom (text : List Char) (start : Nat) (spelling : String) : Prop :=
  ∃ earlier, tokensFrom 0 text =
    .ok (earlier ++ [⟨.atom spelling, ⟨start, byteLength text⟩⟩])

theorem atomBefore?_eq_some_iff (before after : List Char) :
    atomBefore? (before ++ after) (byteLength before) = some (start, spelling) ↔
      EndsWithAtom before start spelling := by
  rw [atomBefore?, takeBytes_append, EndsWithAtom]
  cases cut : tokensFrom 0 before with
  | error error => simp
  | ok tokens =>
    simp only [Except.ok.injEq]
    rw [← List.getLast?_eq_some_iff]
    split
    · next text span last =>
      obtain ⟨start', stop⟩ := span
      rw [last]
      by_cases ends : stop = byteLength before
      · simp [ends, and_comm]
      · simp [ends]
    · next other =>
      refine ⟨nofun, fun last => ?_⟩
      exact (other _ _ last).elim

theorem lexeme_text_of_atom (isAtom : (lexeme c rest).kind = .ok (.atom spelling)) :
    (lexeme c rest).text = spelling.toList := by
  rcases lexeme_kind_cases isAtom with other | ⟨-, inside, -, same⟩ | ⟨starts, same⟩
  · exact ((other spelling).2 rfl).elim
  · cases same
  · cases same
    rw [lexeme_atom starts, String.toList_ofList]

/-- A text that is an atom by itself is the spelling of this atom. -/
theorem eq_spelling_of_alone
    (alone : tokensFrom 0 text = .ok [⟨.atom spelling, ⟨0, byteLength text⟩⟩]) :
    text = spelling.toList := by
  obtain ⟨c, rest, rfl, found⟩ := lexeme_of_alone alone
  rw [← lexeme_text_of_atom (congrArg Lexeme.kind found), found]

theorem EndsWithAtom.spelled (ends : EndsWithAtom text start spelling) :
    ∃ front, text = front ++ spelling.toList ∧ byteLength front = start := by
  obtain ⟨earlier, cut⟩ := ends
  obtain ⟨front, slice, after, found, alone⟩ := tokensFrom_slices cut _ List.mem_concat_self
  rw [eq_spelling_of_alone alone] at found
  have starts : start = 0 + byteLength front := found.start
  have stops : byteLength text = start + byteLength spelling.toList := found.stop
  have whole := found.whole
  have bytes := congrArg byteLength whole
  rw [byteLength_append, byteLength_append] at bytes
  have nothing : after = [] := eq_nil_of_byteLength_eq_zero (by omega)
  rw [nothing, List.append_nil] at whole
  exact ⟨front, whole, by omega⟩

/-! ### The place of the cursor in a whole line -/

/-- A token that ends where the text does is the last one. -/
theorem InOrder.eq_concat (order : InOrder start tokens stop) (member : token ∈ tokens)
    (ends : token.span.stop = stop) : ∃ earlier, tokens = earlier ++ [token] := by
  obtain ⟨earlier, later, rfl⟩ := List.append_of_mem member
  obtain ⟨between, -, -, -, behind⟩ := order.split
  cases later with
  | nil => exact ⟨earlier, rfl⟩
  | cons next later =>
    have inside := behind.mem List.mem_cons_self
    omega

/-- A text that ends inside a token ends with an atom if the token is one. -/
theorem EndsInside.exists_endsWithAtom_iff (inside : EndsInside 0 text done token) :
    (∃ spelling, EndsWithAtom text start spelling) ↔
      ∃ spelling stop, token = ⟨.atom spelling, ⟨start, stop⟩⟩ := by
  constructor
  · rintro ⟨spelling, earlier, same⟩
    cases inside with
    | @atom _ _ spelling' span _ _ starts stops cut =>
      rw [cut, Except.ok.injEq] at same
      have last := (List.append_inj' same rfl).2
      obtain ⟨-, rfl⟩ : _ ∧ span.start = start := by simpa using last
      exact ⟨spelling', span.stop, rfl⟩
    | tilde starts stops cut =>
      rw [cut, Except.ok.injEq] at same
      have last := (List.append_inj' same rfl).2
      simp at last
    | str starts stops failed =>
      rw [failed] at same
      cases same
  · rintro ⟨spelling, stop, rfl⟩
    cases inside with
    | atom split some starts stops cut => exact ⟨_, done, by rwa [Nat.zero_add] at cut⟩

/-- In a line that can be cut, the text up to the cursor ends with an atom just where an atom of the
line starts before the cursor and ends there or behind it. Both atoms have the same start. -/
theorem exists_endsWithAtom_iff (cut : tokensFrom 0 (before ++ after) = .ok tokens) :
    (∃ spelling, EndsWithAtom before start spelling) ↔
      ∃ spelling stop, ⟨.atom spelling, ⟨start, stop⟩⟩ ∈ tokens ∧
        start < byteLength before ∧ byteLength before ≤ stop := by
  have order := tokensFrom_inOrder cut
  obtain ⟨done, later, rfl, earlier, ends⟩ := tokensFrom_cut cut
  rw [Nat.zero_add] at earlier ends
  rcases ends with ⟨short, behind⟩ | ⟨token, others, rfl, inside, behind⟩
  · have shortOrder := tokensFrom_inOrder short
    rw [Nat.zero_add] at shortOrder
    constructor
    · rintro ⟨spelling, others, same⟩
      rw [short] at same
      cases same
      obtain ⟨-, starts, -⟩ := shortOrder.mem List.mem_concat_self
      exact ⟨spelling, _, List.mem_append_left _ List.mem_concat_self, starts, Nat.le_refl _⟩
    · rintro ⟨spelling, stop, member, starts, stops⟩
      rcases List.mem_append.1 member with member | member
      · obtain rfl : stop = byteLength before := Nat.le_antisymm (earlier _ member) stops
        obtain ⟨others, rfl⟩ := shortOrder.eq_concat member rfl
        exact ⟨spelling, others, short⟩
      · exact absurd (behind _ member) (Nat.not_le_of_lt starts)
  · rw [inside.exists_endsWithAtom_iff]
    have starts' := inside.start_lt
    have stops' := inside.lt_stop
    rw [Nat.zero_add] at starts' stops'
    constructor
    · rintro ⟨spelling, stop, rfl⟩
      exact ⟨spelling, stop, List.mem_append_right _ List.mem_cons_self, starts', stops'.le⟩
    · rintro ⟨spelling, stop, member, starts, stops⟩
      rcases List.mem_append.1 member with member | member
      · -- A token that is done ends before the one that the cursor is in.
        obtain ⟨between, inOrder, next, -⟩ := order.split
        obtain ⟨-, -, ends⟩ := inOrder.mem member
        exact absurd (ends.trans next) (Nat.not_le_of_lt (starts'.trans_le stops))
      · rcases List.mem_cons.1 member with same | member
        · exact ⟨spelling, stop, same.symm⟩
        · exact absurd (behind _ member) (Nat.not_le_of_lt starts)

/-! ### Completion -/

/-- The names that are offered for an atom: all usable names that go on as it does, in the order of
their bytes and each one once. -/
structure Offers (store : Store) (scope : Nat) (spelling : String) (candidates : List String) :
    Prop where
  rising : candidates.Pairwise fun first second => bytesOf first < bytesOf second
  mem_iff : ∀ name, name ∈ candidates ↔ spelling.toList <+: name.toList ∧ Usable store scope name

theorem complete_offers (store : Store) (scope : Nat) (after : List Char)
    (ends : EndsWithAtom before start spelling) :
    ∃ candidates, complete store.scopes scope (String.ofList (before ++ after)) (byteLength before) =
      ⟨start, candidates⟩ ∧ Offers store scope spelling candidates := by
  rw [complete, String.toList_ofList, (atomBefore?_eq_some_iff before after).2 ends]
  refine ⟨_, rfl, ?_, fun name => ?_⟩
  · exact (Names.sort_pairwise _).filter _ |>.imp bytesOf_lt
  · rw [List.mem_filter, mem_usableNames, List.isPrefixOf_iff_prefix, and_comm]

theorem complete_nothing (scopes : Scopes) (scope : Nat) (before after : List Char)
    (none : ∀ start spelling, ¬ EndsWithAtom before start spelling) :
    complete scopes scope (String.ofList (before ++ after)) (byteLength before) =
      ⟨byteLength before, []⟩ := by
  have nothing : atomBefore? (before ++ after) (byteLength before) = Option.none :=
    Option.eq_none_iff_forall_ne_some.2 fun ⟨start, spelling⟩ found =>
      none start spelling ((atomBefore?_eq_some_iff before after).1 found)
  rw [complete, String.toList_ofList, nothing]

/-- Completion goes by the text before the cursor. If this ends with an atom, the names that go on as it
does are offered in its place, otherwise nothing is. In a line that can be cut as a whole, names are
offered just if the cursor is inside an atom or at its end, and in place of the text from its start. -/
theorem completion_follows_atoms (store : Store) (scope : Nat) (before after : List Char) :
    let line := String.ofList (before ++ after)
    let cursor := byteLength before
    (∀ start spelling, EndsWithAtom before start spelling →
      (∃ front, before = front ++ spelling.toList ∧ byteLength front = start) ∧
        ∃ candidates, complete store.scopes scope line cursor = ⟨start, candidates⟩ ∧
          Offers store scope spelling candidates) ∧
      ((∀ start spelling, ¬ EndsWithAtom before start spelling) →
        complete store.scopes scope line cursor = ⟨cursor, []⟩) ∧
      ∀ tokens, tokenize line = .ok tokens → ∀ start,
        ((∃ spelling, EndsWithAtom before start spelling) ↔
          ∃ spelling stop, ⟨.atom spelling, ⟨start, stop⟩⟩ ∈ tokens ∧
            start < cursor ∧ cursor ≤ stop) := by
  intro line cursor
  refine ⟨?_, ?_, ?_⟩
  · intro start spelling ends
    exact ⟨ends.spelled, complete_offers store scope after ends⟩
  · exact complete_nothing store.scopes scope before after
  · intro tokens cut start
    rw [tokenize, String.toList_ofList] at cut
    exact exists_endsWithAtom_iff cut

/-- The cursor inside an atom behind a wide character, and inside a string. -/
theorem completion_follows_atoms_inside :
    (∃ candidates, complete Store.initial.scopes 0 "λ (defx 1)" 6 = ⟨4, candidates⟩ ∧
        "def!" ∈ candidates ∧ "do" ∉ candidates) ∧
      complete Store.initial.scopes 0 "(do \"do\")" 7 = ⟨7, []⟩ ∧
      ∃ spelling, EndsWithAtom "λ (de".toList 4 spelling := by
  have ends : EndsWithAtom "λ (de".toList 4 "de" :=
    ⟨[⟨.atom "λ", ⟨0, 2⟩⟩, ⟨.opening .round, ⟨3, 4⟩⟩], by cbv⟩
  have inString : tokensFrom 0 "(do \"do".toList = .error ⟨.unterminatedString, ⟨4, 7⟩⟩ := by cbv
  obtain ⟨offered, -, cut⟩ := completion_follows_atoms Store.initial 0 "λ (de".toList "fx 1)".toList
  obtain ⟨-, nothing, -⟩ := completion_follows_atoms Store.initial 0 "(do \"do".toList "\")".toList
  refine ⟨?_, ?_, ?_⟩
  · obtain ⟨-, candidates, found, -, each⟩ := offered 4 "de" ends
    refine ⟨candidates, found, (each _).2 ⟨?_, .inl ⟨.define, rfl⟩⟩, fun member => ?_⟩
    · decide
    · exact absurd ((each _).1 member).1 (by decide)
  · refine nothing fun start spelling ends => ?_
    obtain ⟨earlier, same⟩ := ends
    rw [inString] at same
    cases same
  · refine (cut [⟨.atom "λ", ⟨0, 2⟩⟩, ⟨.opening .round, ⟨3, 4⟩⟩, ⟨.atom "defx", ⟨4, 8⟩⟩,
      ⟨.atom "1", ⟨9, 10⟩⟩, ⟨.closing .round, ⟨10, 11⟩⟩] ?_ 4).2 ⟨"defx", 8, ?_, ?_, ?_⟩
    · cbv
    · decide
    · decide
    · decide

end MiniLisp
