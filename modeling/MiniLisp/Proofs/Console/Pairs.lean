import MiniLisp.Token.Basic

/-! Which brackets of a line belong together. A closing bracket belongs to the innermost bracket that is
open before it, of whatever kind the two are, and both are closed from there on. This is said here by the
shape of what stands between two brackets; that a stack finds the same pairs is a theorem. -/

namespace MiniLisp

/-- What a character of a line is to its brackets. -/
inductive Role where
  /-- It belongs to a string. -/
  | string
  | opening (bracket : Bracket)
  | closing (bracket : Bracket)
  | other
deriving DecidableEq, Repr

namespace Role

/-- The characters that are no brackets. -/
def Neutral : Role → Prop
  | string | other => True
  | opening _ | closing _ => False

def isOpening : Role → Bool
  | opening _ => true
  | string | closing _ | other => false

def isClosing : Role → Bool
  | closing _ => true
  | string | opening _ | other => false

end Role

/-! ### Stretches in which all brackets are in pairs -/

/-- Every opening bracket in a stretch is closed there, and every closing bracket closes one. -/
inductive Balanced : List Role → Prop where
  | nil : Balanced []
  | neutral (before : Balanced roles) (neutral : role.Neutral) : Balanced (roles ++ [role])
  | pair (before : Balanced first) (inside : Balanced second) :
    Balanced (first ++ .opening opening :: second ++ [.closing closing])

/-- The last bracket of a balanced stretch that ends with one closes a bracket in it. -/
theorem Balanced.of_closing (balanced : Balanced (roles ++ [.closing closing])) :
    ∃ first opening second, roles = first ++ .opening opening :: second ∧
      Balanced first ∧ Balanced second := by
  generalize same : roles ++ [Role.closing closing] = whole at balanced
  cases balanced with
  | nil => simp at same
  | neutral before neutral =>
    obtain ⟨-, last⟩ := List.append_inj' same rfl
    cases last
    exact neutral.elim
  | pair before inside =>
    obtain ⟨rfl, -⟩ := List.append_inj' same rfl
    exact ⟨_, _, _, rfl, before, inside⟩

/-- As many brackets are closed as are opened in a balanced stretch, and at no point in it are more. -/
theorem Balanced.counts (balanced : Balanced roles) :
    roles.countP Role.isClosing = roles.countP Role.isOpening ∧
      ∀ start, start <+: roles → start.countP Role.isClosing ≤ start.countP Role.isOpening := by
  induction balanced with
  | nil => simp
  | @neutral roles role _ neutral ih =>
    obtain ⟨level, below⟩ := ih
    have uncounted : role.isClosing = false ∧ role.isOpening = false := by
      cases role <;> simp_all [Role.Neutral, Role.isClosing, Role.isOpening]
    have whole : (roles ++ [role]).countP Role.isClosing =
        (roles ++ [role]).countP Role.isOpening := by
      simp [List.countP_append, uncounted, level]
    refine ⟨whole, fun start leading => ?_⟩
    rcases List.prefix_concat_iff.1 leading with rfl | leading
    · exact Nat.le_of_eq whole
    · exact below start leading
  | @pair first second opening closing _ _ ih ih' =>
    obtain ⟨level, below⟩ := ih
    obtain ⟨level', below'⟩ := ih'
    have whole : (first ++ Role.opening opening :: second ++ [Role.closing closing]).countP
          Role.isClosing =
        (first ++ Role.opening opening :: second ++ [Role.closing closing]).countP
          Role.isOpening := by
      simp only [List.countP_append, List.countP_cons, List.countP_nil, Role.isClosing,
        Role.isOpening, ↓reduceIte, Bool.false_eq_true]
      omega
    refine ⟨whole, fun start leading => ?_⟩
    rcases List.prefix_concat_iff.1 leading with rfl | leading
    · exact Nat.le_of_eq whole
    -- A point in the first stretch, or behind the opening bracket in the second.
    rcases List.prefix_or_prefix_of_prefix leading (List.prefix_append _ _) with earlier | ⟨rest, rfl⟩
    · exact below start earlier
    · rw [List.prefix_append_right_inj] at leading
      cases rest with
      | nil => simp [level]
      | cons role rest =>
        obtain ⟨rfl, inner⟩ := List.cons_prefix_cons.1 leading
        have fewer := below' rest inner
        simp only [List.countP_append, List.countP_cons, Role.isClosing, Role.isOpening, ↓reduceIte,
          Bool.false_eq_true]
        omega

theorem Balanced.not_closed_early (balanced : Balanced start) :
    ¬Balanced (start ++ .closing closing :: rest) := by
  intro balanced'
  have level := balanced.counts.1
  have below := balanced'.counts.2 (start ++ [.closing closing]) (by simp)
  simp only [List.countP_append, List.countP_cons, List.countP_nil, Role.isClosing,
    Role.isOpening, ↓reduceIte, Bool.false_eq_true] at below
  omega

theorem Balanced.not_opened_late (balanced : Balanced rest) :
    ¬Balanced (start ++ .opening opening :: rest) := by
  intro balanced'
  have level := balanced.counts.1
  obtain ⟨level', below⟩ := balanced'.counts
  have below := below start (List.prefix_append _ _)
  simp only [List.countP_append, List.countP_cons, Role.isClosing, Role.isOpening, ↓reduceIte,
    Bool.false_eq_true] at level'
  omega

/-! ### The innermost open bracket -/

/-- The bracket at a place is open at the end, and all brackets behind it are in pairs. -/
def InnermostOpen (roles : List Role) (place : Nat) (bracket : Bracket) : Prop :=
  ∃ before inside, roles = before ++ .opening bracket :: inside ∧ before.length = place ∧
    Balanced inside

theorem InnermostOpen.getElem? (innermost : InnermostOpen roles place bracket) :
    roles[place]? = some (.opening bracket) := by
  obtain ⟨before, inside, rfl, rfl, -⟩ := innermost
  simp

/-- There is one way only to split a line at its innermost open bracket. -/
theorem split_innermost_unique
    (same : before ++ Role.opening bracket :: inside = before' ++ .opening bracket' :: inside')
    (balanced : Balanced inside) (balanced' : Balanced inside') :
    before = before' ∧ bracket = bracket' ∧ inside = inside' := by
  rcases List.append_eq_append_iff.1 same with ⟨extra, rfl, split⟩ | ⟨extra, rfl, split⟩
  · cases extra with
    | nil =>
      cases split
      exact ⟨by simp, rfl, rfl⟩
    | cons role extra =>
      obtain ⟨-, rfl⟩ := List.cons.inj split
      exact (balanced'.not_opened_late balanced).elim
  · cases extra with
    | nil =>
      cases split
      exact ⟨by simp, rfl, rfl⟩
    | cons role extra =>
      obtain ⟨-, rfl⟩ := List.cons.inj split
      exact (balanced.not_opened_late balanced').elim

theorem InnermostOpen.unique (innermost : InnermostOpen roles place bracket)
    (innermost' : InnermostOpen roles place' bracket') : place = place' ∧ bracket = bracket' := by
  obtain ⟨before, inside, rfl, rfl, balanced⟩ := innermost
  obtain ⟨before', inside', same, rfl, balanced'⟩ := innermost'
  obtain ⟨rfl, rfl, -⟩ := split_innermost_unique same balanced balanced'
  exact ⟨rfl, rfl⟩

/-- A bracket that is open innermost at the end of a longer line is its last character, or stands in the
line before that. -/
theorem InnermostOpen.of_concat (innermost : InnermostOpen (roles ++ [role]) place bracket) :
    (role = .opening bracket ∧ place = roles.length) ∨
      ∃ before inside, roles = before ++ .opening bracket :: inside ∧ before.length = place ∧
        Balanced (inside ++ [role]) := by
  obtain ⟨before, inside, same, rfl, balanced⟩ := innermost
  rcases List.eq_nil_or_concat inside with rfl | ⟨inside, last, rfl⟩
  · obtain ⟨rfl, last⟩ := List.append_inj' same rfl
    cases last
    exact .inl ⟨rfl, rfl⟩
  · rw [List.concat_eq_append] at same balanced
    rw [← List.cons_append, ← List.append_assoc] at same
    obtain ⟨rfl, last⟩ := List.append_inj' same rfl
    cases last
    exact .inr ⟨before, inside, rfl, rfl, balanced⟩

theorem InnermostOpen.of_neutral (neutral : role.Neutral)
    (innermost : InnermostOpen (roles ++ [role]) place bracket) :
    InnermostOpen roles place bracket := by
  rcases innermost.of_concat with ⟨rfl, -⟩ | ⟨before, inside, rfl, rfl, balanced⟩
  · exact neutral.elim
  · refine ⟨before, inside, rfl, rfl, ?_⟩
    generalize same : inside ++ [role] = whole at balanced
    cases balanced with
    | nil => simp at same
    | neutral earlier _ =>
      obtain ⟨rfl, -⟩ := List.append_inj' same rfl
      exact earlier
    | pair _ _ =>
      obtain ⟨-, last⟩ := List.append_inj' same rfl
      cases last
      exact neutral.elim

/-- Behind a closing bracket, what is open innermost was so in front of the bracket that is closed. -/
theorem InnermostOpen.of_closing
    (innermost : InnermostOpen (roles ++ [.closing closing]) place bracket) :
    ∃ before opening inside, roles = before ++ .opening opening :: inside ∧ Balanced inside ∧
      InnermostOpen before place bracket := by
  rcases innermost.of_concat with ⟨last, -⟩ | ⟨before, inside, rfl, rfl, balanced⟩
  · cases last
  · obtain ⟨first, opening, second, rfl, balanced, balanced'⟩ := balanced.of_closing
    refine ⟨before ++ .opening bracket :: first, opening, second, by simp, balanced', ?_⟩
    exact ⟨before, first, rfl, rfl, balanced⟩

/-! ### Pairs -/

/-- The brackets at two places are a pair: at the second one a bracket is closed, and what is open
innermost in front of it is the bracket at the first. -/
structure Pair (roles : List Role) (first second : Nat) (opening closing : Bracket) : Prop where
  closes : roles[second]? = some (.closing closing)
  opens : InnermostOpen (roles.take second) first opening

theorem Pair.lt (pair : Pair roles first second opening closing) :
    first < second ∧ second < roles.length := by
  have inside := (List.getElem?_eq_some_iff.1 pair.closes).1
  have earlier := (List.getElem?_eq_some_iff.1 pair.opens.getElem?).1
  rw [List.length_take] at earlier
  omega

/-- One more character closes the bracket at a place. -/
def ClosedBy (roles : List Role) (role : Role) (place : Nat) (opening closing : Bracket) : Prop :=
  role = .closing closing ∧ InnermostOpen roles place opening

/-- The pairs of a longer line. -/
theorem pair_concat : Pair (roles ++ [role]) first second opening closing ↔
    Pair roles first second opening closing ∨
      (second = roles.length ∧ ClosedBy roles role first opening closing) := by
  constructor
  · rintro ⟨closes, opens⟩
    rcases Nat.lt_trichotomy second roles.length with earlier | rfl | behind
    · rw [List.getElem?_append_left earlier] at closes
      rw [List.take_append_of_le_length (Nat.le_of_lt earlier)] at opens
      exact .inl ⟨closes, opens⟩
    · rw [List.take_append_of_le_length (Nat.le_refl _), List.take_length] at opens
      exact .inr ⟨rfl, by simpa using closes, opens⟩
    · simp [List.getElem?_eq_none (show (roles ++ [role]).length ≤ second by simp; omega)] at closes
  · rintro (pair | ⟨rfl, rfl, innermost⟩)
    · have inside := pair.lt.2
      refine ⟨?_, ?_⟩
      · rw [List.getElem?_append_left inside]
        exact pair.closes
      · rw [List.take_append_of_le_length (Nat.le_of_lt inside)]
        exact pair.opens
    · exact ⟨by simp, by simpa using innermost⟩

/-- A bracket that is closed is not open any more. -/
theorem Pair.not_innermostOpen (pair : Pair roles first second opening closing) (bracket : Bracket) :
    ¬InnermostOpen roles first bracket := by
  rintro ⟨before', inside', same, rfl, balanced'⟩
  obtain ⟨before, inside, start, sameLength, balanced⟩ := pair.opens
  have whole : roles = before ++ .opening opening :: (inside ++ .closing closing ::
      roles.drop (second + 1)) := by
    have closes := (List.getElem?_eq_some_iff.1 pair.closes).2
    calc roles = roles.take second ++ roles.drop second := (List.take_append_drop second roles).symm
      _ = before ++ .opening opening :: inside ++ .closing closing :: roles.drop (second + 1) := by
        rw [start, List.drop_eq_getElem_cons pair.lt.2, closes]
      _ = _ := by rw [List.append_assoc, List.cons_append]
  obtain ⟨rfl, behind⟩ := List.append_inj (whole.symm.trans same) sameLength
  obtain ⟨-, rfl⟩ := List.cons.inj behind
  exact balanced.not_closed_early balanced'

/-- The bracket at a place is one of a pair. -/
def Paired (roles : List Role) (place : Nat) : Prop :=
  ∃ first second opening closing, Pair roles first second opening closing ∧
    (place = first ∨ place = second)

/-! ### The stack -/

/-- The brackets that are open at the end of a line, each with its place, the innermost first. -/
inductive OpenStack : List Role → List (Nat × Bracket) → Prop where
  | empty (none : ∀ place bracket, ¬InnermostOpen roles place bracket) : OpenStack roles []
  | within (outer : OpenStack before stack) (inside : Balanced roles) :
    OpenStack (before ++ .opening bracket :: roles) ((before.length, bracket) :: stack)

namespace OpenStack

theorem nil : OpenStack [] [] := by
  refine .empty ?_
  rintro _ _ ⟨before, inside, same, -⟩
  simp at same

/-- What is open stands in the line, and what is further inside stands further behind. -/
theorem nested (stacked : OpenStack roles stack) :
    (∀ entry ∈ stack, entry.1 < roles.length) ∧
      stack.Pairwise fun inner outer => outer.1 < inner.1 := by
  induction stacked with
  | empty none => simp
  | @within before stack inside bracket outer balanced ih =>
    obtain ⟨earlier, nested⟩ := ih
    refine ⟨List.forall_mem_cons.2 ⟨by simp, fun entry member => ?_⟩,
      List.pairwise_cons.2 ⟨earlier, nested⟩⟩
    have := earlier entry member
    simp only [List.length_append, List.length_cons]
    omega

/-- The top of the stack is the innermost open bracket. -/
theorem head_iff (stacked : OpenStack roles stack) :
    InnermostOpen roles place bracket ↔ stack.head? = some (place, bracket) := by
  cases stacked with
  | empty none => simp [none]
  | within outer inside =>
    constructor
    · intro innermost
      obtain ⟨rfl, rfl⟩ := innermost.unique ⟨_, _, rfl, rfl, inside⟩
      rfl
    · rintro ⟨⟩
      exact ⟨_, _, rfl, rfl, inside⟩

theorem neutral (stacked : OpenStack roles stack) (neutral : role.Neutral) :
    OpenStack (roles ++ [role]) stack := by
  cases stacked with
  | empty none => exact .empty fun place bracket innermost => none _ _ (innermost.of_neutral neutral)
  | within outer inside =>
    rw [List.append_assoc, List.cons_append]
    exact .within outer (inside.neutral neutral)

theorem opening (stacked : OpenStack roles stack) (bracket : Bracket) :
    OpenStack (roles ++ [.opening bracket]) ((roles.length, bracket) :: stack) :=
  .within stacked .nil

/-- A closing bracket takes the innermost open bracket off the stack, if there is one. -/
theorem closing (stacked : OpenStack roles stack) (bracket : Bracket) :
    OpenStack (roles ++ [.closing bracket]) stack.tail := by
  cases stacked with
  | empty none =>
    refine .empty fun place opening innermost => ?_
    obtain ⟨before, opening', inside, rfl, balanced, -⟩ := innermost.of_closing
    exact none _ _ ⟨before, inside, rfl, rfl, balanced⟩
  | within outer inside =>
    cases outer with
    | empty none =>
      refine .empty fun place opening innermost => ?_
      obtain ⟨before, opening', inside', same, balanced, inner⟩ := innermost.of_closing
      obtain ⟨rfl, -, -⟩ := split_innermost_unique same inside balanced
      exact none _ _ inner
    | within outer inside' =>
      -- The pair that is closed becomes part of what stands behind the next bracket outward.
      simpa using OpenStack.within outer (inside'.pair inside)

end OpenStack

end MiniLisp
