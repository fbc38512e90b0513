import MiniLisp.Proofs.Storage.Nodes
import MiniLisp.Value.Basic

/-! Values as they are stored. Of a pair, a vector, a map or a closure only the place of a cell is held, of a
list its first node with its count, and of all else the thing itself. So whoever copies what is held shares
the storage of the original. A cell holds only what is older, so the older cells alone tell what its parts
are, and what is stored later changes nothing about a value. -/

namespace MiniLisp

/-- What is held of a value. -/
inductive Ref where
  | nil
  | bool (b : Bool)
  | num (n : Int64)
  | str (text : String)
  | sym (symbol : Symbol)
  | pair (place : Nat)
  | list (chain : StoredList)
  | vec (place : Nat)
  | map (place : Nat)
  | prim (primitive : Primitive)
  | closure (place : Nat)
deriving DecidableEq

/-- What a cell holds that is no node of a list. -/
inductive Content where
  | pair (car cdr : Ref)
  | vec (items : List Ref)
  | map (entries : List (Ref × Ref))
  | closure (params : Params) (body : Ref) (scope : Nat)

/-- All cells in which values are stored. -/
abbrev Storage := Cells Ref Content

namespace Ref

/-- The place from which a value is stored, if it is stored at all. -/
def place? : Ref → Option Nat
  | pair place | vec place | map place | closure place => some place
  | list chain => chain.head
  | nil | bool _ | num _ | str _ | sym _ | prim _ => none

/-- Whether all that belongs to a value lies before a place. -/
def Before (ref : Ref) (place : Nat) : Prop := ∀ own ∈ ref.place?, own < place

theorem Before.mono {ref : Ref} (before : ref.Before place) (le : place ≤ place') :
    ref.Before place' :=
  fun own member => Nat.lt_of_lt_of_le (before own member) le

theorem nil_before (place : Nat) : Ref.nil.Before place := by
  intro own member
  cases member

/-- Whether something held lies before the place from which a value is stored. -/
def OlderThan (part ref : Ref) : Prop := ∃ place, ref.place? = some place ∧ part.Before place

theorem OlderThan.before {part ref : Ref} (older : part.OlderThan ref)
    (held : ref.Before (place + 1)) : part.Before place := by
  obtain ⟨own, stored, before⟩ := older
  exact before.mono (Nat.le_of_lt_succ (held own stored))

end Ref

/-- The references that some content is made of. -/
def Content.parts : Content → List Ref
  | pair car cdr => [car, cdr]
  | vec items => items
  | map entries => entries.flatMap fun entry => [entry.1, entry.2]
  | closure _ body _ => [body]

namespace Storage

/-- Whether every cell holds only what was there before it. -/
def Founded : Storage → Prop
  | [] => True
  | .inl node :: older =>
    node.value.Before older.length ∧ (∀ next ∈ node.next, next < older.length) ∧ Founded older
  | .inr content :: older => (∀ part ∈ content.parts, part.Before older.length) ∧ Founded older

/-- The content at a place. -/
def contentAt? (storage : Storage) (place : Nat) : Option Content :=
  (Cells.at? storage place).bind Sum.getRight?

/-- The two parts of the pair at a place. -/
def pairAt (storage : Storage) (place : Nat) : Ref × Ref :=
  match storage.contentAt? place with
  | some (.pair car cdr) => (car, cdr)
  | _ => (.nil, .nil)

/-- The elements of the vector at a place. -/
def vecAt (storage : Storage) (place : Nat) : List Ref :=
  match storage.contentAt? place with
  | some (.vec items) => items
  | _ => []

/-- The entries of the map at a place. -/
def mapAt (storage : Storage) (place : Nat) : List (Ref × Ref) :=
  match storage.contentAt? place with
  | some (.map entries) => entries
  | _ => []

/-- The parameters, the body and the scope of the closure at a place. -/
def closureAt (storage : Storage) (place : Nat) : Params × Ref × Nat :=
  match storage.contentAt? place with
  | some (.closure params body scope) => (params, body, scope)
  | _ => (⟨[], none⟩, .nil, 0)

/-- The parts of a value as they are held. -/
def parts (storage : Storage) : Ref → List Ref
  | .pair place => [(storage.pairAt place).1, (storage.pairAt place).2]
  | .list chain => Cells.elements storage chain
  | .vec place => storage.vecAt place
  | .map place => (storage.mapAt place).flatMap fun entry => [entry.1, entry.2]
  | .closure place => [(storage.closureAt place).2.1]
  | .nil | .bool _ | .num _ | .str _ | .sym _ | .prim _ => []

theorem car_mem_parts (storage : Storage) (place : Nat) :
    (storage.pairAt place).1 ∈ storage.parts (.pair place) :=
  .head _

theorem cdr_mem_parts (storage : Storage) (place : Nat) :
    (storage.pairAt place).2 ∈ storage.parts (.pair place) :=
  .tail _ (.head _)

/-! ### Parts are older -/

theorem Founded.older {older : Storage} (founded : Founded (cell :: older)) : older.Founded := by
  cases cell with
  | inl => exact founded.2.2
  | inr => exact founded.2

theorem contentAt?_cons (cell : Node Ref ⊕ Content) (older : Storage) (place : Nat) :
    contentAt? (cell :: older) place =
      if place = older.length then cell.getRight? else older.contentAt? place := by
  rw [contentAt?, Cells.at?]
  split <;> rfl

theorem Founded.contentAt {storage : Storage} (founded : storage.Founded)
    (here : storage.contentAt? place = some content) : ∀ part ∈ content.parts, part.Before place := by
  induction storage with
  | nil => cases here
  | cons cell older ih =>
    rw [contentAt?_cons] at here
    split at here
    · next same =>
      cases cell with
      | inl => cases here
      | inr =>
        cases here
        rw [same]
        exact founded.1
    · exact ih founded.older here

theorem Founded.elementsFrom {storage : Storage} (founded : storage.Founded)
    (item : Ref) (member : item ∈ Cells.elementsFrom storage (some place)) : item.Before place := by
  induction storage generalizing place with
  | nil => cases member
  | cons cell older ih =>
    by_cases same : place = older.length
    · cases cell with
      | inr => simp [Cells.elementsFrom, same] at member
      | inl node =>
        simp only [Cells.elementsFrom, same, ↓reduceIte, List.mem_cons] at member
        rcases member with rfl | member
        · rw [same]
          exact founded.1
        · cases following : node.next with
          | none => simp [following, Cells.elementsFrom] at member
          | some next =>
            rw [following] at member
            have further := founded.2.1 next following
            exact (ih founded.older member).mono (by omega)
    · rw [Cells.elementsFrom_older cell same] at member
      exact ih founded.older member

/-- Whatever has parts is stored somewhere, and they lie before it. -/
theorem Founded.parts {storage : Storage} (founded : storage.Founded) {ref part : Ref}
    (member : part ∈ storage.parts ref) : part.OlderThan ref := by
  cases ref with
  | pair place =>
    refine ⟨place, rfl, ?_⟩
    simp only [Storage.parts, pairAt] at member
    split at member
    · next here => exact founded.contentAt here part member
    · simp only [List.mem_cons, List.not_mem_nil, or_false, or_self] at member
      subst member
      exact Ref.nil_before place
  | list chain =>
    cases started : chain.head with
    | none => simp [Storage.parts, Cells.elements, started, Cells.elementsFrom] at member
    | some place =>
      rw [Storage.parts, Cells.elements, started] at member
      exact ⟨place, started, founded.elementsFrom part member⟩
  | vec place =>
    refine ⟨place, rfl, ?_⟩
    simp only [Storage.parts, vecAt] at member
    split at member
    · next here => exact founded.contentAt here part member
    · cases member
  | map place =>
    refine ⟨place, rfl, ?_⟩
    simp only [Storage.parts, mapAt] at member
    split at member
    · next here => exact founded.contentAt here part member
    · cases member
  | closure place =>
    refine ⟨place, rfl, ?_⟩
    simp only [Storage.parts, closureAt] at member
    split at member
    · next here => exact founded.contentAt here part member
    · cases member with
      | head => exact Ref.nil_before place
      | tail _ none => cases none
  | _ => cases member

/-- What passes from the parts of a value to the value holds of all that is stored, since parts are older. -/
@[elab_as_elim]
theorem Founded.part_induction {storage : Storage} (founded : storage.Founded) {motive : Ref → Prop}
    (whole : ∀ ref, ref.Before storage.length →
      (∀ part ∈ storage.parts ref, part.Before storage.length ∧ motive part) → motive ref)
    (ref : Ref) (held : ref.Before storage.length) : motive ref := by
  -- A part lies before the place of the value, which is then the bound for the part.
  have below : ∀ bound ≤ storage.length, ∀ ref : Ref, ref.Before bound → motive ref := by
    intro bound
    induction bound using Nat.strongRecOn with
    | ind bound ih =>
    intro le ref before
    refine whole ref (before.mono le) fun part member => ?_
    obtain ⟨place, own, older⟩ := founded.parts member
    have lower := before place own
    exact ⟨older.mono (by omega), ih place lower (by omega) part older⟩
  exact below _ (Nat.le_refl _) ref held

/-! ### What is said of a value and its parts -/

/-- Says something of a value, from what is said of its parts, which are looked for in the older storage. -/
def recurse {γ : Type} (visit : Storage → (Ref → γ) → Ref → γ) (otherwise : γ) :
    Storage → Ref → γ
  | [] => visit [] fun _ => otherwise
  | cell :: older => visit (cell :: older) (recurse visit otherwise older)

/-- Whether what is said of a value depends on what is said of its parts alone, and on no newer cells. -/
structure Local {γ : Type} (visit : Storage → (Ref → γ) → Ref → γ) : Prop where
  parts {storage : Storage} {say say' : Ref → γ} {ref : Ref} :
    (∀ part ∈ storage.parts ref, say part = say' part) → visit storage say ref = visit storage say' ref
  frame {older : Storage} {ref : Ref} (cell : Node Ref ⊕ Content) (say : Ref → γ) :
    ref.Before older.length → visit (cell :: older) say ref = visit older say ref

section

variable {γ : Type} {visit : Storage → (Ref → γ) → Ref → γ} {otherwise : γ} {ref : Ref}

theorem recurse_cons (cell : Node Ref ⊕ Content) (older : Storage) :
    recurse visit otherwise (cell :: older) ref =
      visit (cell :: older) (older.recurse visit otherwise) ref :=
  rfl

/-- What is said of a value follows from what is said of its parts in the same storage. -/
theorem Founded.recurse_eq {storage : Storage} (founded : storage.Founded) (lawful : Local visit)
    (held : ref.Before storage.length) :
    storage.recurse visit otherwise ref = visit storage (storage.recurse visit otherwise) ref := by
  induction storage generalizing ref with
  | nil =>
    refine lawful.parts fun part member => ?_
    obtain ⟨place, own, -⟩ := founded.parts member
    exact absurd (held place own) (Nat.not_lt_zero place)
  | cons cell older ih =>
    -- Only the parts are asked for in the older storage, and all of them lie there.
    refine lawful.parts fun part member => ?_
    have before : part.Before older.length := (founded.parts member).before held
    rw [recurse_cons, lawful.frame cell _ before, ih founded.older before]

/-- Nothing that is stored later changes what is said of a value. -/
theorem Founded.recurse_push {older : Storage} (founded : older.Founded) (lawful : Local visit)
    (cell : Node Ref ⊕ Content) (held : ref.Before older.length) :
    recurse visit otherwise (cell :: older) ref = older.recurse visit otherwise ref := by
  rw [recurse_cons, lawful.frame cell _ held, founded.recurse_eq lawful held]

end

section

variable {older : Storage} {place : Nat} {cell : Node Ref ⊕ Content}

theorem contentAt?_older (before : place < older.length) :
    contentAt? (cell :: older) place = older.contentAt? place := by
  rw [contentAt?_cons, if_neg (Nat.ne_of_lt before)]

theorem elements_older {chain : StoredList} (before : (Ref.list chain).Before older.length) :
    Cells.elements (cell :: older) chain = Cells.elements older chain := by
  unfold Cells.elements
  cases started : chain.head with
  | none => rw [Cells.elementsFrom, Cells.elementsFrom]
  | some place => exact Cells.elementsFrom_older cell (Nat.ne_of_lt (before place started))

end

/-! ### Values -/

/-- The value that is held, from the values of its parts. -/
def valueWith (storage : Storage) (read : Ref → Value) : Ref → Value
  | .nil => .nil
  | .bool b => .bool b
  | .num n => .num n
  | .str text => .str text
  | .sym symbol => .sym symbol
  | .pair place => .pair (read (storage.pairAt place).1) (read (storage.pairAt place).2)
  | .list chain => .list ((Cells.elements storage chain).map read)
  | .vec place => .vec ((storage.vecAt place).map read)
  | .map place =>
    .map (.made place) ((storage.mapAt place).map fun entry => (read entry.1, read entry.2))
  | .prim primitive => .prim primitive
  | .closure place =>
    .closure place (storage.closureAt place).1 (read (storage.closureAt place).2.1)
      (storage.closureAt place).2.2

/-- The value that is held. Maps and closures are told apart by their places. -/
def value (storage : Storage) : Ref → Value := storage.recurse valueWith .nil

theorem valueWith_local : Local valueWith where
  parts {storage say say' ref} same := by
    cases ref with
    | map place =>
      have each : ∀ entry ∈ storage.mapAt place,
          (say entry.1, say entry.2) = (say' entry.1, say' entry.2) := by
        intro entry member
        rw [same entry.1 (List.mem_flatMap.2 ⟨entry, member, by simp⟩),
          same entry.2 (List.mem_flatMap.2 ⟨entry, member, by simp⟩)]
      rw [valueWith, valueWith, List.map_congr_left each]
    | _ => simp_all [valueWith, parts]
  frame {older ref} cell say before := by
    cases ref with
    | pair place => simp only [valueWith, pairAt, contentAt?_older (before place rfl)]
    | list chain => simp only [valueWith, elements_older before]
    | vec place => simp only [valueWith, vecAt, contentAt?_older (before place rfl)]
    | map place => simp only [valueWith, mapAt, contentAt?_older (before place rfl)]
    | closure place => simp only [valueWith, closureAt, contentAt?_older (before place rfl)]
    | _ => rfl

/-! ### Sequences -/

/-- The elements from a value on that stands at the end of a chain of pairs, or further along. -/
def chainWith (storage : Storage) (further : Ref → Option (List Ref)) : Ref → Option (List Ref)
  | .nil => some []
  | .list chain => some (Cells.elements storage chain)
  | .pair place => ((storage.pairAt place).1 :: ·) <$> further (storage.pairAt place).2
  | _ => none

/-- What a chain of pairs holds from a value on. -/
def chainItems? (storage : Storage) : Ref → Option (List Ref) := storage.recurse chainWith none

/-- The elements of a sequence. -/
def items? (storage : Storage) : Ref → Option (List Ref)
  | .list chain => some (Cells.elements storage chain)
  | .vec place => some (storage.vecAt place)
  | .pair place => storage.chainItems? (.pair place)
  | _ => none

theorem chainWith_local : Local chainWith where
  parts {storage say say' ref} same := by
    cases ref <;> simp_all [chainWith, parts]
  frame {older ref} cell say before := by
    cases ref with
    | pair place => simp only [chainWith, pairAt, contentAt?_older (before place rfl)]
    | list chain => simp only [chainWith, elements_older before]
    | _ => rfl

/-! ### What is held is the value -/

namespace Founded

variable {storage : Storage} {ref : Ref}

theorem value_eq (founded : storage.Founded) (held : ref.Before storage.length) :
    storage.value ref = storage.valueWith storage.value ref :=
  founded.recurse_eq valueWith_local held

theorem value_push {older : Storage} (founded : older.Founded) (cell : Node Ref ⊕ Content)
    (held : ref.Before older.length) : value (cell :: older) ref = older.value ref :=
  founded.recurse_push valueWith_local cell held

theorem chainItems?_eq (founded : storage.Founded) (held : ref.Before storage.length) :
    storage.chainItems? ref = storage.chainWith storage.chainItems? ref :=
  founded.recurse_eq chainWith_local held

/-- The elements along a chain of pairs are older than the chain. -/
theorem older_of_chainItems (founded : storage.Founded) (held : ref.Before storage.length) :
    ∀ items, storage.chainItems? ref = some items → ∀ item ∈ items, item.OlderThan ref := by
  refine founded.part_induction ?_ ref held
  intro ref held ih items found item member
  rw [founded.chainItems?_eq held] at found
  cases ref with
  | nil =>
    cases found
    cases member
  | list chain =>
    cases found
    exact founded.parts member
  | pair place =>
    obtain ⟨further, others, rfl⟩ := Option.map_eq_some_iff.1 found
    refine ⟨place, rfl, ?_⟩
    have older : ∀ part ∈ storage.parts (.pair place), part.Before place := by
      intro part inside
      obtain ⟨own, same, before⟩ := founded.parts inside
      cases same
      exact before
    rcases List.mem_cons.1 member with rfl | member
    · exact older _ (storage.car_mem_parts place)
    · have cdr := storage.cdr_mem_parts place
      obtain ⟨start, own, before⟩ := (ih _ cdr).2 further others item member
      exact before.mono (Nat.le_of_lt (older _ cdr start own))
  | _ => cases found

theorem older_of_items (founded : storage.Founded) (held : ref.Before storage.length)
    (found : storage.items? ref = some items) (member : item ∈ items) : item.OlderThan ref := by
  cases ref with
  | list chain =>
    cases found
    exact founded.parts member
  | vec place =>
    cases found
    have part : item ∈ storage.parts (.vec place) := member
    exact founded.parts part
  | pair place => exact founded.older_of_chainItems held items found item member
  | _ => cases found

theorem chainItems?_value (founded : storage.Founded) (held : ref.Before storage.length) :
    (storage.value ref).chainItems? = (storage.chainItems? ref).map (List.map storage.value) := by
  refine founded.part_induction ?_ ref held
  intro ref held ih
  rw [founded.value_eq held, founded.chainItems?_eq held]
  cases ref with
  | pair place =>
    have cdr := (ih _ (storage.cdr_mem_parts place)).2
    rw [valueWith, chainWith, Value.chainItems?, cdr]
    cases storage.chainItems? (storage.pairAt place).2 <;> rfl
  | _ => rfl

/-- A value is a sequence just if what is held is one, and its elements are the values of those held. -/
theorem items?_value (founded : storage.Founded) (held : ref.Before storage.length) :
    (storage.value ref).items? = (storage.items? ref).map (List.map storage.value) := by
  cases ref with
  | pair place =>
    have chained := founded.chainItems?_value held
    rw [founded.value_eq held] at chained ⊢
    exact chained
  | _ =>
    rw [founded.value_eq held]
    rfl

end Founded

end Storage

end MiniLisp
