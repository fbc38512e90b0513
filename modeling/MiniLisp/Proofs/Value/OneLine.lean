import MiniLisp.Proofs.Eval.Unmentioned
import MiniLisp.Proofs.Reader.RoundTrip

/-! Values that are printed on one line. A line feed in a string is printed as an escape, so the only
line feeds that a printed form could have are those in names. The reader makes no such names, and
neither does any primitive. -/

namespace MiniLisp

open Value

/-- A text that is one whole line: its only line feed is its last character. -/
def IsLine (text : List Char) : Prop := ∃ line, '\n' ∉ line ∧ text = line ++ ['\n']

/-- No symbol that occurs in a value, at any depth or in the body of a closure, breaks a line. -/
def Value.Unbroken (value : Value) : Prop :=
  ∀ symbol, value.Mentions symbol → '\n' ∉ symbol.name.toList

/-! ### Which values are printed on one line -/

theorem Value.unbroken_sym : (Value.sym symbol).Unbroken ↔ '\n' ∉ symbol.name.toList := by
  constructor
  · exact fun unbroken => unbroken symbol .self
  · intro clean symbol' mentions
    rw [mentions_sym] at mentions
    exact mentions ▸ clean

theorem Value.unbroken_closure :
    (Value.closure serial params body scope).Unbroken ↔ body.Unbroken := by
  constructor
  · exact fun unbroken symbol mentions => unbroken symbol (.body mentions)
  · rintro unbroken symbol (_ | ⟨held, -⟩ | mentions)
    · cases held
    · exact unbroken symbol mentions

theorem Value.hereditary_unbroken : Hereditary Unbroken where
  part unbroken held symbol mentions := unbroken symbol (.child held mentions)
  whole := by
    intro value other other' each symbol mentions
    cases mentions with
    | self => exact (other' symbol rfl).elim
    | child held inside => exact each _ held symbol inside
    | body _ => exact (other _ _ _ _ rfl).elim
  typeName value := by
    have clean : '\n' ∉ (":" ++ value.typeName).toList := by
      cases value with
      | sym symbol => cases keyword : symbol.isKeyword <;> simp [typeName, keyword]
      | _ => simp [typeName]
    exact unbroken_sym.2 clean

/-- Line feeds are no part of atoms. -/
theorem feed_not_mem_of_isAtom (atom : IsAtom text) : '\n' ∉ text := by
  obtain ⟨c, rest, rfl, starts, others⟩ := atom
  rw [List.mem_cons, not_or]
  refine ⟨?_, ?_⟩
  · rintro rfl
    cases starts
  · intro member
    cases others _ member

theorem Readable.unbroken (readable : Readable value) : value.Unbroken := by
  induction readable with
  | nil => exact hereditary_unbroken.nil
  | bool => exact hereditary_unbroken.bool _
  | num => exact hereditary_unbroken.num _
  | str => exact hereditary_unbroken.leaf nofun nofun rfl
  | sym atom _ => exact unbroken_sym.2 (feed_not_mem_of_isAtom atom)
  | list _ ih => exact hereditary_unbroken.list.2 ih
  | vec _ ih => exact hereditary_unbroken.vec.2 ih
  | map _ _ keys values =>
    exact hereditary_unbroken.map fun entry member => ⟨keys entry member, values entry member⟩

/-! ### Printed forms -/

theorem feed_not_mem_put {text : List Char} (clean : '\n' ∉ text) (place : Place) :
    '\n' ∉ place.put text := by
  cases place with
  | alone => exact clean
  | tail => simpa [Place.put] using clean

theorem feed_not_mem_encodeLiteral (text : List Char) : '\n' ∉ encodeLiteral text := by
  have clean : ∀ c, '\n' ∉ encodeChar c := by
    intro c
    unfold encodeChar
    split
    · decide
    · split
      · decide
      · next feed =>
        split
        · decide
        · simpa using Ne.symm feed
  simp [encodeLiteral, clean]

theorem feed_not_mem_joinSpaced {texts : List (List Char)} (each : ∀ text ∈ texts, '\n' ∉ text) :
    '\n' ∉ joinSpaced texts := by
  fun_induction joinSpaced texts with
  | case1 => simp
  | case2 text => exact each text List.mem_cons_self
  | case3 text texts _ ih =>
    rw [List.forall_mem_cons] at each
    simp [each.1, ih each.2]

theorem feed_not_mem_writeAll (each : ∀ item ∈ items, '\n' ∉ write .alone item) :
    '\n' ∉ joinSpaced (writeAll items) := by
  apply feed_not_mem_joinSpaced
  rwa [writeAll_eq_map, List.forall_mem_map]

theorem Value.Unbroken.feed_not_mem_write (unbroken : value.Unbroken) (place : Place) :
    '\n' ∉ write place value := by
  induction value generalizing place with
  | nil => cases place <;> decide
  | bool b => cases b <;> cases place <;> decide
  | num n => exact feed_not_mem_put (feed_not_mem_of_isAtom (isAtom_toString n.toInt)) place
  | str text => exact feed_not_mem_put (feed_not_mem_encodeLiteral _) place
  | sym symbol => exact feed_not_mem_put (unbroken_sym.1 unbroken) place
  | pair car cdr first second =>
    have car := first (hereditary_unbroken.part unbroken (by simp [children])) .alone
    have cdr := second (hereditary_unbroken.part unbroken (by simp [children])) .tail
    cases place <;> simp [write, car, cdr]
  | list items ih =>
    have each : ∀ item ∈ items, '\n' ∉ write .alone item := fun item member =>
      ih item member (hereditary_unbroken.part unbroken member) .alone
    cases place with
    | alone => simp [write, feed_not_mem_writeAll each]
    | tail => simpa [write, writeAll_eq_map] using each
  | vec items ih =>
    have each : ∀ item ∈ items, '\n' ∉ write .alone item := fun item member =>
      ih item member (hereditary_unbroken.part unbroken member) .alone
    refine feed_not_mem_put ?_ place
    simp [feed_not_mem_writeAll each]
  | map origin entries ih =>
    have each : ∀ item ∈ Entries.flat entries, '\n' ∉ write .alone item := by
      intro item member
      have unbroken := hereditary_unbroken.part unbroken member
      obtain ⟨entry, held, rfl | rfl⟩ := Entries.mem_flat.1 member
      · exact (ih entry held).1 unbroken .alone
      · exact (ih entry held).2 unbroken .alone
    refine feed_not_mem_put ?_ place
    rw [writeEntries_eq_writeAll]
    simp [feed_not_mem_writeAll each]
  | prim primitive => cases primitive <;> cases place <;> decide
  | closure => exact feed_not_mem_put (by decide) place

theorem Value.Unbroken.feed_not_mem_print (unbroken : Unbroken value) :
    '\n' ∉ value.print.toList := by
  rw [print, String.toList_ofList]
  exact unbroken.feed_not_mem_write .alone

theorem isLine_printLine (each : ∀ value ∈ values, Value.Unbroken value) :
    IsLine (printLine values).toList := by
  refine ⟨joinSpaced (writeAll values), feed_not_mem_writeAll ?_, String.toList_ofList⟩
  exact fun value member => (each value member).feed_not_mem_write .alone

end MiniLisp
