import MiniLisp.Proofs.Reader.Atoms
import MiniLisp.Proofs.Value.Copies
import MiniLisp.Reader.Basic

/-! The grammar of forms over the kinds of token, given by its productions and without reference to
the reader's stack. A production also says which value it stands for. Map literals are numbered in
the order of their closing brackets, so every phrase carries the number for the next literal as it
stands before and after the phrase. -/

namespace MiniLisp

/-- The kinds of some tokens. -/
abbrev kindsOf (tokens : List Token) : List TokenKind := tokens.map Token.kind

mutual

/-- The tokens of one form and the value that they stand for. -/
inductive Form : Nat → List TokenKind → Value → Nat → Prop where
  | atom (accepted : atomValue text span = .ok value) : Form first [.atom text] value first
  | str : Form first [.str text] (.str text) first
  | list (inside : Forms first kinds items second) :
      Form first (.opening .round :: (kinds ++ [.closing .round])) (.list items) second
  | vec (inside : Forms first kinds items second) :
      Form first (.opening .square :: (kinds ++ [.closing .square])) (.vec items) second
  | map (literal : MapLiteral first kinds value second) : Form first kinds value second
  | shorthand (wrapped : Form first kinds value second) :
      Form first (.shorthand mark :: kinds) (.list [.sym ⟨mark.name⟩, value]) second
  | metadata (literal : MapLiteral first kinds map second)
      (carrier : Form second kinds' value third) :
      Form first (.caret :: (kinds ++ kinds')) (.list [.sym ⟨"with-meta"⟩, value, map]) third

/-- An even number of forms in curly brackets. The map is numbered as its bracket closes. -/
inductive MapLiteral : Nat → List TokenKind → Value → Nat → Prop where
  | braced {entries : Entries} (inside : Forms first kinds entries.flat second) :
      MapLiteral first (.opening .curly :: (kinds ++ [.closing .curly]))
        (.map (.literal second) entries) (second + 1)

/-- The tokens of any number of forms, one after the other. -/
inductive Forms : Nat → List TokenKind → List Value → Nat → Prop where
  | nil : Forms first [] [] first
  | cons (head : Form first kinds value second) (tail : Forms second kinds' values third) :
      Forms first (kinds ++ kinds') (value :: values) third

end

/-- One more form at the end. -/
theorem Forms.snoc : Forms first kinds values second → Form second kinds' value third →
    Forms first (kinds ++ kinds') (values ++ [value]) third
  | .nil, last => by simpa using Forms.cons last .nil
  | .cons head tail, last => by simpa using Forms.cons head (tail.snoc last)

mutual

/-- Tokens that are a form are one whatever number the next map literal gets, and stand for the same
value but for the numbers of its literals. -/
theorem Form.renumber (first' : Nat) : Form first kinds value second →
    ∃ value' second', Form first' kinds value' second' ∧ value'.unnumbered = value.unnumbered
  | .atom accepted => ⟨_, _, .atom accepted, rfl⟩
  | .str => ⟨_, _, .str, rfl⟩
  | .list inside =>
    have ⟨_, _, inside', same⟩ := inside.renumber first'
    ⟨_, _, .list inside', congrArg Value.list same⟩
  | .vec inside =>
    have ⟨_, _, inside', same⟩ := inside.renumber first'
    ⟨_, _, .vec inside', congrArg Value.vec same⟩
  | .map literal =>
    have ⟨_, _, literal', same⟩ := literal.renumber first'
    ⟨_, _, .map literal', same⟩
  | .shorthand wrapped => by
    obtain ⟨value', second', wrapped', same⟩ := wrapped.renumber first'
    refine ⟨_, second', .shorthand wrapped', ?_⟩
    simp only [Value.unnumbered, Value.unnumberedAll, same]
  | .metadata literal carrier => by
    obtain ⟨map', second', literal', sameMap⟩ := literal.renumber first'
    obtain ⟨value', third', carrier', same⟩ := carrier.renumber second'
    refine ⟨_, third', .metadata literal' carrier', ?_⟩
    simp only [Value.unnumbered, Value.unnumberedAll, same, sameMap]

theorem MapLiteral.renumber (first' : Nat) : MapLiteral first kinds value second →
    ∃ value' second', MapLiteral first' kinds value' second' ∧ value'.unnumbered = value.unnumbered
  | .braced inside => by
    obtain ⟨items', second', inside', same⟩ := inside.renumber first'
    obtain ⟨entries', rfl, agree⟩ := Value.exists_entries_of_unnumberedAll same
    exact ⟨_, _, .braced inside', congrArg (Value.map (.literal 0)) agree⟩

theorem Forms.renumber (first' : Nat) : Forms first kinds values second →
    ∃ values' second', Forms first' kinds values' second' ∧
      Value.unnumberedAll values' = Value.unnumberedAll values
  | .nil => ⟨_, _, .nil, rfl⟩
  | .cons head tail =>
    have ⟨_, second', head', same⟩ := head.renumber first'
    have ⟨_, _, tail', sames⟩ := tail.renumber second'
    ⟨_, _, .cons head' tail', congrArg₂ List.cons same sames⟩

end

/-! ### The numbers of map literals -/

/-- Whether all maps in a value are literals with numbers from one up to another. -/
def NumberedWithin (first last : Nat) (value : Value) : Prop :=
  ∀ origin entries, Value.Contains value (.map origin entries) →
    ∃ number, origin = .literal number ∧ first ≤ number ∧ number < last

theorem NumberedWithin.mono (within : NumberedWithin first last value) (lower : first' ≤ first)
    (upper : last ≤ last') : NumberedWithin first' last' value := by
  intro origin entries held
  obtain ⟨number, literal, least, less⟩ := within origin entries held
  exact ⟨number, literal, by omega, by omega⟩

/-- The maps in a value are those in what it holds, unless it is a map itself. -/
theorem numberedWithin_of_children (other : ∀ origin entries, value ≠ .map origin entries)
    (each : ∀ item ∈ value.children, NumberedWithin first last item) :
    NumberedWithin first last value := by
  intro origin entries held
  rcases Value.contains_iff.1 held with same | ⟨item, member, inside⟩
  · exact (other origin entries same.symm).elim
  · exact each item member origin entries inside

/-- An atom holds no map. -/
theorem numberedWithin_of_atomValue (accepted : atomValue text span = .ok value) :
    NumberedWithin first last value := by
  obtain ⟨-, rfl⟩ | ⟨-, rfl⟩ | ⟨-, rfl⟩ | ⟨-, ⟨-, rfl⟩ | ⟨word, -, rfl⟩⟩ :=
    atomValue_eq_ok_iff.1 accepted
  all_goals exact numberedWithin_of_children nofun (List.forall_mem_nil _)

mutual

/-- The map literals of a form get the numbers from the one before it up to the one behind it. -/
theorem Form.numberedWithin : Form first kinds value second →
    first ≤ second ∧ NumberedWithin first second value
  | .atom accepted => ⟨Nat.le_refl _, numberedWithin_of_atomValue accepted⟩
  | .str => ⟨Nat.le_refl _, numberedWithin_of_children nofun (List.forall_mem_nil _)⟩
  | .list inside | .vec inside =>
    have ⟨order, each⟩ := inside.numberedWithin
    ⟨order, numberedWithin_of_children nofun each⟩
  | .map literal => literal.numberedWithin
  | .shorthand wrapped => by
    obtain ⟨order, within⟩ := wrapped.numberedWithin
    refine ⟨order, numberedWithin_of_children nofun (List.forall_mem_cons.2 ⟨?_, ?_⟩)⟩
    · exact numberedWithin_of_children nofun (List.forall_mem_nil _)
    · exact List.forall_mem_singleton.2 within
  | .metadata literal carrier => by
    obtain ⟨order, within⟩ := literal.numberedWithin
    obtain ⟨order', within'⟩ := carrier.numberedWithin
    refine ⟨order.trans order', numberedWithin_of_children nofun (List.forall_mem_cons.2 ⟨?_, ?_⟩)⟩
    · exact numberedWithin_of_children nofun (List.forall_mem_nil _)
    · exact List.forall_mem_cons.2 ⟨within'.mono order (Nat.le_refl _),
        List.forall_mem_singleton.2 (within.mono (Nat.le_refl _) order')⟩

theorem MapLiteral.numberedWithin : MapLiteral first kinds value second →
    first ≤ second ∧ NumberedWithin first second value
  | .braced inside => by
    obtain ⟨order, each⟩ := inside.numberedWithin
    refine ⟨Nat.le_succ_of_le order, fun origin entries held => ?_⟩
    rcases Value.contains_iff.1 held with same | ⟨item, member, deeper⟩
    · cases same
      exact ⟨_, rfl, order, Nat.lt_succ_self _⟩
    · exact (each item member).mono (Nat.le_refl _) (Nat.le_succ _) origin entries deeper

theorem Forms.numberedWithin : Forms first kinds values second →
    first ≤ second ∧ ∀ value ∈ values, NumberedWithin first second value
  | .nil => ⟨Nat.le_refl _, List.forall_mem_nil _⟩
  | .cons head tail => by
    obtain ⟨order, within⟩ := head.numberedWithin
    obtain ⟨order', each⟩ := tail.numberedWithin
    refine ⟨order.trans order', List.forall_mem_cons.2 ⟨within.mono (Nat.le_refl _) order', ?_⟩⟩
    exact fun value member => (each value member).mono order (Nat.le_refl _)

end

/-! ### Brackets around forms -/

/-- Curly brackets around forms make a map literal if they give a value at all, which takes an even
number of forms. -/
theorem Forms.braced (inside : Forms first kinds items second)
    (given : bracketValue second .curly start stop items = .ok closed) :
    MapLiteral first (.opening .curly :: (kinds ++ [.closing .curly])) closed.value
      closed.literals := by
  simp only [bracketValue] at given
  split at given
  · next entries paired =>
    cases given
    rw [Entries.pairUp?_eq_some_iff] at paired
    subst paired
    exact .braced inside
  · cases given

/-- Brackets around forms make a form if they give a value. -/
theorem Forms.bracketed (inside : Forms first kinds items second)
    (given : bracketValue second bracket start stop items = .ok closed) :
    Form first (.opening bracket :: (kinds ++ [.closing bracket])) closed.value closed.literals := by
  cases bracket with
  | round => cases given; exact .list inside
  | square => cases given; exact .vec inside
  | curly => exact .map (inside.braced given)

end MiniLisp
