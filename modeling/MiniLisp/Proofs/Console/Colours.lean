import MiniLisp.Proofs.Console.Agreement
import MiniLisp.Proofs.Console.Pairs

/-! The colours that the characters of a line should have, said without going through the line: a pair of
brackets has the colours of the pair, and every other character has the colour of its kind. One more
character changes the colour of one earlier character at most, that of the bracket which it closes. -/

namespace MiniLisp

/-! ### Roles -/

/-- What a character that belongs to a string, a comment or code is to the brackets of its line. -/
def Part.role (c : Char) : Part → Role
  | string => .string
  | comment => .other
  | code =>
    match Bracket.ofOpen? c, Bracket.ofClose? c with
    | some bracket, _ => .opening bracket
    | none, some bracket => .closing bracket
    | none, none => .other

/-- What the characters of a line are to its brackets, if no comment ends before the line does. -/
def rolesOf (line : List Char) : List Role :=
  (partsFrom (fun _ => false) .code line).map fun (c, part) => part.role c

/-- Where a scan stands behind a text, if nothing ends a comment. -/
def Mode.behind (text : List Char) : Mode := text.foldl (Mode.after fun _ => false) .code

theorem Mode.behind_concat (text : List Char) (c : Char) :
    Mode.behind (text ++ [c]) = (Mode.behind text).after (fun _ => false) c := by
  rw [behind, List.foldl_append]
  rfl

theorem length_partsFrom (closes : Char → Bool) (mode : Mode) (text : List Char) :
    (partsFrom closes mode text).length = text.length := by
  induction text generalizing mode with
  | nil => rfl
  | cons c rest ih => rw [partsFrom, List.length_cons, ih, List.length_cons]

theorem partsFrom_append (closes : Char → Bool) (mode : Mode) (first second : List Char) :
    partsFrom closes mode (first ++ second) =
      partsFrom closes mode first ++
        partsFrom closes (first.foldl (Mode.after closes) mode) second := by
  induction first generalizing mode with
  | nil => rfl
  | cons c rest ih => rw [List.cons_append, partsFrom, ih, partsFrom, List.foldl_cons, List.cons_append]

theorem length_rolesOf (line : List Char) : (rolesOf line).length = line.length := by
  rw [rolesOf, List.length_map, length_partsFrom]

theorem rolesOf_concat (line : List Char) (c : Char) :
    rolesOf (line ++ [c]) = rolesOf line ++ [((Mode.behind line).part c).role c] := by
  rw [rolesOf, partsFrom_append, List.map_append]
  rfl

/-! ### Colours -/

/-- The colour of a character that is in no pair of brackets. -/
def Role.lone : Role → Paint
  | string => .string
  | closing _ => .mismatched
  | opening _ | other => .plain

/-- The colours of a pair of brackets at two places. -/
structure PairColoured (cursor : Nat) (line : List Char) (paints : List Paint) (first second : Nat)
    (opening closing : Bracket) : Prop where
  mismatched : opening ≠ closing →
    paints[first]? = some .mismatchedOpening ∧ paints[second]? = some .mismatched
  /-- The cursor stands right behind one of the two. -/
  near : opening = closing →
    cursor = byteLength (line.take first) + 1 ∨ cursor = byteLength (line.take second) + 1 →
    paints[first]? = some .pairedOpening ∧ paints[second]? = some .paired
  far : opening = closing →
    ¬(cursor = byteLength (line.take first) + 1 ∨ cursor = byteLength (line.take second) + 1) →
    paints[first]? = some .plain ∧ paints[second]? = some .plain

/-- Every character of a line without comments has the colour that it should have. -/
structure Coloured (cursor : Nat) (line : List Char) (paints : List Paint) : Prop where
  length : paints.length = line.length
  lone : ∀ place role, (rolesOf line)[place]? = some role → ¬Paired (rolesOf line) place →
    paints[place]? = some role.lone
  pair : ∀ first second opening closing, Pair (rolesOf line) first second opening closing →
    PairColoured cursor line paints first second opening closing

theorem Coloured.nil (cursor : Nat) : Coloured cursor [] [] where
  length := rfl
  lone place role found := by simp [rolesOf, partsFrom] at found
  pair first second opening closing pair := by simpa [rolesOf, partsFrom] using pair.closes

/-- The colours of a pair stay right when a line grows and the two stay as they are. -/
theorem PairColoured.append (coloured : PairColoured cursor line paints first second opening closing)
    (first_le : first ≤ line.length) (second_le : second ≤ line.length)
    (first_same : paints'[first]? = paints[first]?)
    (second_same : paints'[second]? = paints[second]?) (more : List Char) :
    PairColoured cursor (line ++ more) paints' first second opening closing := by
  constructor
  all_goals
    simp only [List.take_append_of_le_length first_le, List.take_append_of_le_length second_le,
      first_same, second_same]
  · exact coloured.mismatched
  · exact coloured.near
  · exact coloured.far

/-- One more character. The colours of a longer line are right if those of its last character and of the
bracket that this closes are, and all others are kept. -/
theorem Coloured.concat (coloured : Coloured cursor line paints)
    (grown : rolesOf (line ++ [c]) = rolesOf line ++ [role])
    (length : paints'.length = line.length + 1)
    (kept : ∀ place < line.length,
      (∀ opening closing, ¬ClosedBy (rolesOf line) role place opening closing) →
      paints'[place]? = paints[place]?)
    (lone : (∀ first opening closing, ¬ClosedBy (rolesOf line) role first opening closing) →
      paints'[line.length]? = some role.lone)
    (pair : ∀ first opening closing, ClosedBy (rolesOf line) role first opening closing →
      PairColoured cursor (line ++ [c]) paints' first line.length opening closing) :
    Coloured cursor (line ++ [c]) paints' where
  length := by simpa using length
  lone place role' found unpaired := by
    rw [grown] at found unpaired
    rcases Nat.lt_or_ge place (rolesOf line).length with earlier | behind
    · rw [List.getElem?_append_left earlier] at found
      have unchanged : paints'[place]? = paints[place]? := by
        refine kept place (length_rolesOf line ▸ earlier) fun opening closing closed => ?_
        exact unpaired ⟨_, _, _, _, pair_concat.2 (.inr ⟨rfl, closed⟩), .inl rfl⟩
      rw [unchanged]
      refine coloured.lone place role' found ?_
      rintro ⟨first, second, opening, closing, pair, inside⟩
      exact unpaired ⟨first, second, opening, closing, pair_concat.2 (.inl pair), inside⟩
    · have last := (List.getElem?_eq_some_iff.1 found).1
      obtain rfl : place = (rolesOf line).length := by simp at last; omega
      obtain rfl : role = role' := by simpa using found
      rw [length_rolesOf line]
      refine lone fun first opening closing closed => ?_
      exact unpaired ⟨_, _, _, _, pair_concat.2 (.inr ⟨rfl, closed⟩), .inr rfl⟩
  pair first second opening closing found := by
    rw [grown] at found
    rcases pair_concat.1 found with earlier | ⟨rfl, closed⟩
    · have order := earlier.lt
      rw [length_rolesOf] at order
      refine (coloured.pair _ _ _ _ earlier).append (by omega) (by omega) ?_ ?_ [c]
      · -- A bracket that is closed earlier is not closed by the last character.
        refine kept first (by omega) fun opening' closing' closed => ?_
        exact earlier.not_innermostOpen opening' closed.2
      · refine kept second (by omega) fun opening' closing' closed => ?_
        cases earlier.closes.symm.trans closed.2.getElem?
    · rw [length_rolesOf line]
      exact pair first opening closing closed

/-- A last character that closes no bracket leaves all colours as they are. -/
theorem Coloured.concat_lone (coloured : Coloured cursor line paints)
    (grown : rolesOf (line ++ [c]) = rolesOf line ++ [role])
    (none : ∀ first opening closing, ¬ClosedBy (rolesOf line) role first opening closing) :
    Coloured cursor (line ++ [c]) (paints ++ [role.lone]) := by
  have length := coloured.length
  refine coloured.concat grown (by simp [length]) ?_ ?_ ?_
  · intro place earlier _
    rw [List.getElem?_append_left (by omega)]
  · intro _
    rw [← length]
    simp
  · exact fun first opening closing closed => (none first opening closing closed).elim

/-- A closing bracket changes the colour of the bracket that it closes. -/
theorem Coloured.concat_closing (coloured : Coloured cursor line paints)
    (grown : rolesOf (line ++ [c]) = rolesOf line ++ [.closing closing])
    (innermost : InnermostOpen (rolesOf line) first opening)
    (pair : PairColoured cursor (line ++ [c]) ((paints ++ [own]).set first other) first line.length
      opening closing) :
    Coloured cursor (line ++ [c]) ((paints ++ [own]).set first other) := by
  have length := coloured.length
  refine coloured.concat grown (by simp [length]) ?_ ?_ ?_
  · intro place earlier spared
    have apart : first ≠ place := by
      rintro rfl
      exact spared opening closing ⟨rfl, innermost⟩
    rw [List.getElem?_set_ne apart, List.getElem?_append_left (by omega)]
  · exact fun spared => (spared first opening closing ⟨rfl, innermost⟩).elim
  · rintro first' opening' closing' ⟨same, innermost'⟩
    obtain ⟨rfl, rfl⟩ := innermost.unique innermost'
    cases same
    exact pair

end MiniLisp
