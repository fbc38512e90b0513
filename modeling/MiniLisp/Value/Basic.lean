/-! Values of the language. A form that was read and a result of evaluation are the same kind of
thing. Two values are identical if they are built alike from identical parts, which is decidable;
the equality of the language is coarser and is defined apart. -/

namespace MiniLisp

/-- A name (`Symbol`). -/
structure Symbol where
  name : String
deriving DecidableEq, Repr, Inhabited

/-- A name that starts with a colon is a keyword, which stands for itself (`Symbol.is_keyword`). -/
def Symbol.isKeyword (symbol : Symbol) : Bool := symbol.name.toList.head? == some ':'

/-- The functions that are not written in the language itself (`PRIMITIVES`). -/
inductive Primitive where
  | add
  | sub
  | mul
  | div
  | equal
  | less
  | lessOrEqual
  | greater
  | greaterOrEqual
  | cons
  | list
  | isList
  | isEmpty
  | count
  | typeOf
  | isPair
  | car
  | cdr
  | prn
deriving DecidableEq, Repr, Inhabited

namespace Primitive

/-- The name under which a program finds the function. -/
def name : Primitive → String
  | add => "+"
  | sub => "-"
  | mul => "*"
  | div => "/"
  | equal => "="
  | less => "<"
  | lessOrEqual => "<="
  | greater => ">"
  | greaterOrEqual => ">="
  | cons => "cons"
  | list => "list"
  | isList => "list?"
  | isEmpty => "empty?"
  | count => "count"
  | typeOf => "type"
  | isPair => "pair?"
  | car => "car"
  | cdr => "cdr"
  | prn => "prn"

/-- Every primitive, in the order of presentation. -/
def all : List Primitive :=
  [add, sub, mul, div, equal, less, lessOrEqual, greater, greaterOrEqual, cons, list, isList,
    isEmpty, count, typeOf, isPair, car, cdr, prn]

/-- The primitive of a name. -/
def ofName? (name : String) : Option Primitive := all.find? fun primitive => primitive.name == name

theorem ofName?_name (primitive : Primitive) : ofName? primitive.name = some primitive := by
  cases primitive <;> rfl

theorem name_injective : Function.Injective name := by
  intro primitive primitive' same
  have found := ofName?_name primitive
  rw [same, ofName?_name] at found
  exact (Option.some.inj found).symm

end Primitive

/-- The parameters of a closure: one name for each leading argument, and perhaps a name for the list of
all further ones (`ParamSpec`). -/
structure Params where
  fixed : List Symbol
  rest : Option Symbol
deriving DecidableEq, Repr, Inhabited

/-- Where a map came from. Maps of one origin are the same map, which tells a map from a copy. -/
inductive Origin where
  /-- A map literal of a text. Literals are numbered as their closing brackets are read. -/
  | literal (number : Nat)
  /-- A map made while a program ran, numbered in the order of making. -/
  | made (serial : Nat)
deriving DecidableEq, Repr, Inhabited

/-- A value of the language (`Value`). -/
inductive Value where
  | nil
  | bool (b : Bool)
  | num (n : Int64)
  | str (text : String)
  | sym (symbol : Symbol)
  /-- A pair whose second part is no list. -/
  | pair (car cdr : Value)
  | list (items : List Value)
  | vec (items : List Value)
  /-- A map, its entries in the order of insertion. A literal as it was read may repeat a key. -/
  | map (origin : Origin) (entries : List (Value × Value))
  | prim (primitive : Primitive)
  /-- A function of the language with the scope it was made in. Its number tells it from others. -/
  | closure (serial : Nat) (params : Params) (body : Value) (scope : Nat)
deriving Inhabited

namespace Value

/-- The name of the kind of a value (`Value.type_name`). -/
def typeName : Value → String
  | nil => "nil"
  | bool _ => "boolean"
  | num _ => "number"
  | str _ => "string"
  | sym symbol => if symbol.isKeyword then "keyword" else "symbol"
  | pair _ _ => "pair"
  | list _ => "list"
  | vec _ => "vector"
  | map _ _ => "hash-map"
  | prim _ => "function"
  | closure _ _ _ _ => "function"

/-- All values but nil and false count as true (`Value.is_truthy`). -/
def isTruthy : Value → Bool
  | nil => false
  | bool b => b
  | _ => true

/-- What a chain of pairs still holds at its end or further along: nothing at nil, the elements of a
list. A chain that ends in anything else is improper. -/
def chainItems? : Value → Option (List Value)
  | nil => some []
  | list items => some items
  | pair car cdr => (car :: ·) <$> chainItems? cdr
  | _ => none

/-- The elements of a sequence: of a list, a vector or a proper chain of pairs (`Value.sequence_items`). -/
def items? : Value → Option (List Value)
  | list items => some items
  | vec items => some items
  | pair car cdr => (car :: ·) <$> chainItems? cdr
  | _ => none

/-- What stands in the brackets of a list or a vector (`sequence_form`). Pairs have no brackets of their
own. -/
def bracketed? : Value → Option (List Value)
  | list items => some items
  | vec items => some items
  | _ => none

mutual

/-- Whether two values are built alike. -/
def identical : Value → Value → Bool
  | nil, nil => true
  | bool b, bool b' => b == b'
  | num n, num n' => n == n'
  | str text, str text' => text == text'
  | sym symbol, sym symbol' => symbol == symbol'
  | pair car cdr, pair car' cdr' => identical car car' && identical cdr cdr'
  | list items, list items' => identicalAll items items'
  | vec items, vec items' => identicalAll items items'
  | map origin entries, map origin' entries' =>
    origin == origin' && identicalEntries entries entries'
  | prim primitive, prim primitive' => primitive == primitive'
  | closure serial params body scope, closure serial' params' body' scope' =>
    serial == serial' && params == params' && identical body body' && scope == scope'
  | _, _ => false

/-- Whether two lists of values are built alike. -/
def identicalAll : List Value → List Value → Bool
  | [], [] => true
  | item :: items, item' :: items' => identical item item' && identicalAll items items'
  | _, _ => false

/-- Whether two lists of entries are built alike. -/
def identicalEntries : List (Value × Value) → List (Value × Value) → Bool
  | [], [] => true
  | (key, value) :: entries, (key', value') :: entries' =>
    identical key key' && identical value value' && identicalEntries entries entries'
  | _, _ => false

end

/-- A property that passes from the parts of a value to the value holds of every value. -/
@[elab_as_elim, induction_eliminator]
theorem induct {motive : Value → Prop} (nil : motive nil) (bool : ∀ b, motive (bool b))
    (num : ∀ n, motive (num n)) (str : ∀ text, motive (str text))
    (sym : ∀ symbol, motive (sym symbol))
    (pair : ∀ car cdr, motive car → motive cdr → motive (pair car cdr))
    (list : ∀ items, (∀ item ∈ items, motive item) → motive (list items))
    (vec : ∀ items, (∀ item ∈ items, motive item) → motive (vec items))
    (map : ∀ origin entries, (∀ entry ∈ entries, motive entry.1 ∧ motive entry.2) →
      motive (map origin entries))
    (prim : ∀ primitive, motive (prim primitive))
    (closure : ∀ serial params body scope, motive body → motive (closure serial params body scope))
    (value : Value) : motive value :=
  @Value.rec motive (fun items => ∀ item ∈ items, motive item)
    (fun entries => ∀ entry ∈ entries, motive entry.1 ∧ motive entry.2)
    (fun entry => motive entry.1 ∧ motive entry.2)
    nil bool num str sym pair list vec map prim closure (by simp) (by simp_all) (by simp)
    (by simp_all) (fun _ _ first second => ⟨first, second⟩) value

private theorem identicalAll_iff (items : List Value)
    (ih : ∀ item ∈ items, ∀ item', identical item item' = true ↔ item = item')
    (items' : List Value) : identicalAll items items' = true ↔ items = items' := by
  induction items generalizing items' with
  | nil => cases items' <;> simp [identicalAll]
  | cons => cases items' <;> simp_all [identicalAll]

private theorem identicalEntries_iff (entries : List (Value × Value))
    (ih : ∀ entry ∈ entries, (∀ key, identical entry.1 key = true ↔ entry.1 = key) ∧
      ∀ value, identical entry.2 value = true ↔ entry.2 = value)
    (entries' : List (Value × Value)) :
    identicalEntries entries entries' = true ↔ entries = entries' := by
  induction entries generalizing entries' with
  | nil => cases entries' <;> simp [identicalEntries]
  | cons entry entries tail =>
    have head := ih entry List.mem_cons_self
    cases entries' <;> simp_all [identicalEntries, Prod.ext_iff]

theorem identical_iff (left right : Value) : identical left right = true ↔ left = right := by
  induction left generalizing right with
  | list items ih => cases right <;> simp [identical, identicalAll_iff items ih]
  | vec items ih => cases right <;> simp [identical, identicalAll_iff items ih]
  | map origin entries ih => cases right <;> simp [identical, identicalEntries_iff entries ih]
  | _ => cases right <;> simp_all [identical, and_assoc]

theorem identicalEntries_self (entries : List (Value × Value)) :
    identicalEntries entries entries = true :=
  (identicalEntries_iff entries
    (fun entry _ => ⟨identical_iff entry.1, identical_iff entry.2⟩) entries).2 rfl

instance : DecidableEq Value := fun left right =>
  decidable_of_iff (identical left right = true) (identical_iff left right)

end Value

end MiniLisp
