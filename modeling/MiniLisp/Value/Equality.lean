import MiniLisp.Value.Basic

/-! The equality of the language. Sequences are equal if their elements are, whatever holds them:
a list, a vector or a proper chain of pairs. Maps are equal if they are the same map, or if they
have as many entries and each entry of one is answered by the other. Closures are equal only to
themselves.

Values share parts, and a value may hold one part so often that walking it takes forever. Every
value is equal to itself, so the comparison of a part with itself is settled without a walk. -/

namespace MiniLisp

namespace Value

private theorem sizeOf_chainItems {value : Value} {items : List Value}
    (h : chainItems? value = some items) : sizeOf items ≤ sizeOf value := by
  induction value generalizing items with
  | nil => cases h; decide
  | list => cases h; simp
  | pair car cdr _ ih =>
    obtain ⟨after, found, rfl⟩ := Option.map_eq_some_iff.1 h
    have := ih found
    simp
    omega
  | _ => cases h

theorem sizeOf_items {value : Value} {items : List Value} (h : items? value = some items) :
    sizeOf items ≤ sizeOf value := by
  cases value with
  | list => cases h; simp
  | vec => cases h; simp
  | pair => exact sizeOf_chainItems h
  | _ => cases h

/-- The outcome of comparing two things: a yes or a no, with the proof that it is a yes if they are
one and the same. -/
abbrev Comparison {α : Type} (left right : α) : Type :=
  { outcome : Bool // left = right → outcome = true }

namespace Comparison

variable {α β γ : Type}

/-- The same outcome, which is a yes at once if the two things are stored in one place. -/
@[inline] def shared {left right : α} (outcome : Unit → Comparison left right) :
    Comparison left right :=
  ⟨withPtrEq left right (fun _ => (outcome ()).val) (outcome ()).property, (outcome ()).property⟩

/-- A comparison of parts as a comparison of the wholes that they make up. -/
@[inline] def whole {part part' : α} {left right : β} (parts : Comparison part part')
    (same : left = right → part = part') : Comparison left right :=
  ⟨parts.val, fun h => parts.property (same h)⟩

/-- Two comparisons of parts as a comparison of the wholes. The second is made only after a yes. -/
@[inline] def both {part part' : α} {other other' : β} {left right : γ}
    (first : Comparison part part') (second : Unit → Comparison other other')
    (same : left = right → part = part' ∧ other = other') : Comparison left right :=
  ⟨first.val && (second ()).val, fun h => by
    rw [first.property (same h).1, (second ()).property (same h).2]
    rfl⟩

end Comparison

private theorem isSameMap_of_eq {origin origin' : Origin} {entries entries' : List (Value × Value)}
    (same : map origin entries = map origin' entries') (otherwise : Bool) :
    (origin == origin' && identicalEntries entries entries' || otherwise) = true := by
  cases same
  simp [identicalEntries_self]

mutual

/-- Compares two values. Improper chains of pairs are compared part by part, and values that are
neither sequences nor maps nor closures are equal if they are identical. -/
def comparison (left right : Value) : Comparison left right :=
  Comparison.shared fun _ =>
    match _first : left.items?, _second : right.items? with
    | some items, some items' =>
      (comparisonAll items items').whole fun same => by
        rw [same, _second] at _first
        exact Option.some.inj _first.symm
    | _, _ =>
      match left, right with
      | pair car cdr, pair car' cdr' =>
        (comparison car car').both (fun _ => comparison cdr cdr') fun same => by simpa using same
      | map origin entries, map origin' entries' =>
        ⟨origin == origin' && identicalEntries entries entries' ||
          entries.length == entries'.length && answersAll entries' entries,
          fun same => isSameMap_of_eq same _⟩
      | closure serial _ _ _, closure serial' _ _ _ =>
        ⟨serial == serial', fun same => by cases same; simp⟩
      | left, right => ⟨identical left right, (identical_iff left right).2⟩
termination_by 2 * (sizeOf left + sizeOf right) + 1
decreasing_by
  · have := sizeOf_items _first
    have := sizeOf_items _second
    omega
  all_goals simp only [pair.sizeOf_spec, map.sizeOf_spec]; omega

/-- Compares two lists element by element. -/
def comparisonAll (left right : List Value) : Comparison left right :=
  match left, right with
  | [], [] => ⟨true, fun _ => rfl⟩
  | item :: items, item' :: items' =>
    (comparison item item').both (fun _ => comparisonAll items items') fun same => by
      simpa using same
  | [], _ :: _ => ⟨false, fun same => nomatch same⟩
  | _ :: _, [] => ⟨false, fun same => nomatch same⟩
termination_by 2 * (sizeOf left + sizeOf right)

/-- What the last entry of an equal key answers when asked for a value: whether its own is equal.
Nothing answers if no key is equal. -/
def answer? (entries : List (Value × Value)) (key value : Value) : Option Bool :=
  match entries with
  | [] => none
  | (key', value') :: entries =>
    match answer? entries key value with
    | some answer => some answer
    | none => if (comparison key' key).val then some (comparison value' value).val else none
termination_by 2 * (sizeOf entries + sizeOf key + sizeOf value)

/-- Whether the first entries answer yes to each of the second (`MalMap.eq`). -/
def answersAll (entries : List (Value × Value)) : List (Value × Value) → Bool
  | [] => true
  | (key, value) :: asked => answer? entries key value == some true && answersAll entries asked
termination_by asked => 2 * (sizeOf entries + sizeOf asked)

end

/-- Whether two values are equal (`Value.eq`). -/
def equals (left right : Value) : Bool := (comparison left right).val

/-- Whether two lists are equal element by element. -/
def equalsAll (left right : List Value) : Bool := (comparisonAll left right).val

theorem equals_self (value : Value) : equals value value = true :=
  (comparison value value).property rfl

theorem equals_eq (left right : Value) : equals left right =
    match left.items?, right.items? with
    | some items, some items' => equalsAll items items'
    | _, _ =>
      match left, right with
      | pair car cdr, pair car' cdr' => equals car car' && equals cdr cdr'
      | map origin entries, map origin' entries' =>
        origin == origin' && identicalEntries entries entries' ||
          entries.length == entries'.length && answersAll entries' entries
      | closure serial _ _ _, closure serial' _ _ _ => serial == serial'
      | left, right => identical left right := by
  rw [equals, comparison]
  simp only [Comparison.shared, withPtrEq]
  split
  · next first second =>
    simp only [first, second]
    rfl
  · next apart =>
    have otherwise : ∀ {α : Type} (yes : List Value → List Value → α) (no : α),
        (match left.items?, right.items? with
          | some items, some items' => yes items items'
          | _, _ => no) = no := by
      intros
      split
      · next first second => exact (apart _ _ first second).elim
      · rfl
    rw [otherwise]
    split
    · rfl
    · rfl
    · rfl
    · next pairs maps closures =>
      split
      · exact (pairs _ _ _ _ rfl rfl rfl rfl .rfl .rfl).elim
      · exact (maps _ _ _ _ rfl rfl rfl rfl .rfl .rfl).elim
      · exact (closures _ _ _ _ _ _ _ _ rfl rfl rfl rfl .rfl .rfl).elim
      · rfl

theorem equalsAll_nil : equalsAll [] [] = true := by rw [equalsAll, comparisonAll]

theorem equalsAll_cons (item item' : Value) (items items' : List Value) :
    equalsAll (item :: items) (item' :: items') =
      (equals item item' && equalsAll items items') := by
  rw [equalsAll, comparisonAll]
  rfl

theorem answer?_nil (key value : Value) : answer? [] key value = none := by rw [answer?]

theorem answer?_cons (entry : Value × Value) (entries : List (Value × Value)) (key value : Value) :
    answer? (entry :: entries) key value =
      match answer? entries key value with
      | some answer => some answer
      | none => if entry.1.equals key then some (entry.2.equals value) else none := by
  rw [answer?]
  rfl

end Value

end MiniLisp
