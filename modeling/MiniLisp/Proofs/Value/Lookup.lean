import MiniLisp.Proofs.Value.Neighbours

/-! Look-up in maps. Insertion changes the first entry of an equal key and look-up takes the last, but
a map that is built by insertions has one entry at most for every key. So what was inserted last under a
key is found under every equal key, and a map literal with repeated keys answers like the map that is
built from its entries. -/

namespace MiniLisp

open Value

/-- A value that serves as a key: no map in it has two equal keys, and no chain of pairs in it ends in a
vector. Equality of such values is an equivalence. -/
structure Value.IsKey (value : Value) : Prop where
  distinct : DistinctKeys value
  ends : ProperEnds value

theorem Value.IsKey.equals_iff (key : IsKey left) (key' : IsKey right) :
    left.equals right = true ↔ left.canonical = right.canonical :=
  equals_iff_canonical (separated key.distinct key.ends) (separated key'.distinct key'.ends)

theorem Value.IsKey.equals_comm (key : IsKey left) (key' : IsKey right) :
    left.equals right = right.equals left := by
  rw [Bool.eq_iff_iff, key.equals_iff key', key'.equals_iff key, eq_comm]

/-- Equal keys are equal to the same keys. -/
theorem Value.IsKey.equals_congr (key : IsKey left) (key' : IsKey right) (other : IsKey asked)
    (same : left.equals right = true) : left.equals asked = right.equals asked := by
  rw [Bool.eq_iff_iff, key.equals_iff other, key'.equals_iff other, (key.equals_iff key').1 same]

namespace Entries

/-- The keys of some entries, in order. -/
def keys (entries : Entries) : List Value := entries.map Prod.fst

/-- No key is equal to a key behind it, whichever of the two is compared with the other. -/
def Unrepeated (entries : Entries) : Prop :=
  entries.keys.Pairwise fun key later => key.equals later = false ∧ later.equals key = false

/-- The entries before and behind an entry have other keys. -/
theorem Unrepeated.around {before after : Entries}
    (unrepeated : (before ++ (held, value) :: after).Unrepeated) :
    (∀ entry ∈ before, entry.1.equals held = false) ∧
      ∀ entry ∈ after, held.equals entry.1 = false := by
  rw [Unrepeated, keys, List.map_append, List.map_cons, List.pairwise_append] at unrepeated
  obtain ⟨-, behind, apart⟩ := unrepeated
  refine ⟨fun entry member => ?_, fun entry member => ?_⟩
  · exact (apart entry.1 (List.mem_map_of_mem member) held List.mem_cons_self).1
  · exact ((List.pairwise_cons.1 behind).1 entry.1 (List.mem_map_of_mem member)).1

/-! ### What insertion does to the entries -/

/-- A value under a new key comes last. -/
theorem insert_new {entries : Entries} (new : ∀ entry ∈ entries, entry.1.equals key = false) :
    entries.insert key value = entries ++ [(key, value)] := by
  induction entries with
  | nil => rfl
  | cons entry entries ih =>
    have apart := new entry List.mem_cons_self
    have others := ih fun later member => new later (List.mem_cons_of_mem _ member)
    rw [Entries.insert, if_neg (by simp [apart]), others]
    rfl

/-- The first entry of an equal key keeps its place and its key. -/
theorem insert_first {before : Entries} (new : ∀ entry ∈ before, entry.1.equals key = false)
    (same : held.equals key = true) (after : Entries) :
    (before ++ (held, old) :: after).insert key value = before ++ (held, value) :: after := by
  induction before with
  | nil => rw [List.nil_append, Entries.insert, if_pos same, List.nil_append]
  | cons entry before ih =>
    have apart := new entry List.mem_cons_self
    have others := ih fun later member => new later (List.mem_cons_of_mem _ member)
    rw [List.cons_append, Entries.insert, if_neg (by simp [apart]), others, List.cons_append]

/-- A key is new, or there is a first entry of an equal key. -/
theorem new_or_first (entries : Entries) (key : Value) :
    (∀ entry ∈ entries, entry.1.equals key = false) ∨
      ∃ before held old after, entries = before ++ (held, old) :: after ∧
        (∀ entry ∈ before, entry.1.equals key = false) ∧ held.equals key = true := by
  induction entries with
  | nil => simp
  | cons entry entries ih =>
    cases same : entry.1.equals key with
    | true => exact .inr ⟨[], entry.1, entry.2, entries, rfl, by simp, same⟩
    | false =>
      rcases ih with new | ⟨before, held, old, after, rfl, new, equal⟩
      · exact .inl (List.forall_mem_cons.2 ⟨same, new⟩)
      · exact .inr ⟨entry :: before, held, old, after, rfl, List.forall_mem_cons.2 ⟨same, new⟩,
          equal⟩

/-- Insertion leaves the keys as they are, or adds one that is new. -/
theorem keys_insert (entries : Entries) (key value : Value) :
    (entries.insert key value).keys = entries.keys ∨
      (∀ entry ∈ entries, entry.1.equals key = false) ∧
        (entries.insert key value).keys = entries.keys ++ [key] := by
  rcases new_or_first entries key with new | ⟨before, held, old, after, rfl, new, same⟩
  · right
    refine ⟨new, ?_⟩
    rw [insert_new new]
    exact List.map_append
  · left
    rw [insert_first new same]
    simp [keys]

theorem isKey_of_mem_insert {entries : Entries} (each : ∀ held ∈ entries.keys, IsKey held)
    (key : IsKey new) (value : Value) : ∀ held ∈ (entries.insert new value).keys, IsKey held := by
  rcases keys_insert entries new value with same | ⟨-, longer⟩
  · rwa [same]
  · rw [longer]
    intro held member
    rcases List.mem_append.1 member with member | member
    · exact each held member
    · rwa [List.mem_singleton.1 member]

theorem Unrepeated.insert {entries : Entries} (unrepeated : entries.Unrepeated)
    (each : ∀ held ∈ entries.keys, IsKey held) (key : IsKey new) (value : Value) :
    (entries.insert new value).Unrepeated := by
  rcases keys_insert entries new value with same | ⟨apart, longer⟩
  · rwa [Unrepeated, same]
  · rw [Unrepeated, longer, List.pairwise_append]
    refine ⟨unrepeated, List.pairwise_singleton _ _, ?_⟩
    intro held member last isLast
    rw [List.mem_singleton.1 isLast]
    obtain ⟨entry, inside, rfl⟩ := List.mem_map.1 member
    have first := apart entry inside
    exact ⟨first, (key.equals_comm (each _ member)).trans first⟩

/-! ### Look-up -/

theorem get?_append (first second : Entries) (key : Value) :
    (first ++ second).get? key = (second.get? key).or (first.get? key) := by
  induction first with
  | nil => simp [get?]
  | cons entry first ih =>
    rw [List.cons_append, get?, ih, get?]
    cases second.get? key <;> rfl

theorem get?_eq_none {entries : Entries} (apart : ∀ entry ∈ entries, entry.1.equals key = false) :
    entries.get? key = none := by
  induction entries with
  | nil => rfl
  | cons entry entries ih =>
    have others := ih fun later member => apart later (List.mem_cons_of_mem _ member)
    rw [get?, others, apart entry List.mem_cons_self]
    rfl

theorem get?_singleton (key value other : Value) :
    get? [(key, value)] other = if key.equals other then some value else none := rfl

/-- What is found behind an entry, in it, or before it. -/
theorem get?_around (before after : Entries) (held value key : Value) :
    (before ++ (held, value) :: after).get? key = (after.get? key).or
      ((if held.equals key then some value else none).or (before.get? key)) := by
  rw [List.append_cons, get?_append, get?_append, get?_singleton]

/-- An inserted value is found under every equal key, and nothing else changes. -/
theorem get?_insert {entries : Entries} (unrepeated : entries.Unrepeated)
    (each : ∀ held ∈ entries.keys, IsKey held) (key : IsKey new) (key' : IsKey asked)
    (value : Value) : (entries.insert new value).get? asked =
      if asked.equals new then some value else entries.get? asked := by
  rw [key'.equals_comm key]
  rcases new_or_first entries new with apart | ⟨before, held, old, after, rfl, apart, same⟩
  · rw [insert_new apart, get?_append, get?_singleton]
    split <;> rfl
  · have heldKey : IsKey held := each held (by simp [keys])
    rw [insert_first apart same, get?_around, get?_around, heldKey.equals_congr key key' same]
    cases equal : new.equals asked with
    | false => rfl
    | true =>
      -- No entry behind the one that was changed has an equal key.
      have absent : get? after asked = none := by
        apply get?_eq_none
        intro later member
        have laterKey : IsKey later.1 := each later.1 (List.mem_map_of_mem (by simp [member]))
        rw [laterKey.equals_comm key', ← key.equals_congr key' laterKey equal,
          ← heldKey.equals_congr key laterKey same]
        exact unrepeated.around.2 later member
      rw [absent]
      rfl

/-! ### Maps as they are built -/

/-- The entries of a map that is built over keys: it starts without entries or from alternating keys and
values, and values are inserted one after the other. -/
inductive Built : Entries → Prop where
  | empty : Built []
  | ofFlat (paired : pairUp? items = some entries) (each : ∀ key ∈ entries.keys, IsKey key)
      (merged : ofFlat? items = some built) : Built built
  | insert (before : Built entries) (key : IsKey new) (value : Value) :
      Built (entries.insert new value)

/-- Merging inserts one entry more for every entry more. -/
theorem merge_concat (entries : Entries) (entry : Value × Value) :
    merge (entries ++ [entry]) = (merge entries).insert entry.1 entry.2 := by
  rw [merge, List.foldl_append]
  rfl

theorem merge_unrepeated {entries : Entries} (each : ∀ key ∈ entries.keys, IsKey key) :
    (merge entries).Unrepeated ∧ ∀ key ∈ (merge entries).keys, IsKey key := by
  induction entries using List.reverseRecOn with
  | nil => exact ⟨.nil, by simp [merge, keys]⟩
  | append_singleton entries entry ih =>
    have parts := List.forall_mem_append.1 (by simpa only [keys, List.map_append] using each)
    obtain ⟨unrepeated, earlier⟩ := ih parts.1
    have last : IsKey entry.1 := parts.2 entry.1 List.mem_cons_self
    rw [merge_concat]
    exact ⟨unrepeated.insert earlier last entry.2, isKey_of_mem_insert earlier last entry.2⟩

theorem Built.unrepeated (built : Built entries) :
    entries.Unrepeated ∧ ∀ key ∈ entries.keys, IsKey key := by
  induction built with
  | empty => exact ⟨.nil, by simp [keys]⟩
  | ofFlat paired each merged =>
    rw [ofFlat?, paired] at merged
    cases merged
    exact merge_unrepeated each
  | insert before key value ih =>
    exact ⟨ih.1.insert ih.2 key value, isKey_of_mem_insert ih.2 key value⟩

/-- Entries with repeated keys answer like the map that is built from them. -/
theorem get?_merge {entries : Entries} (each : ∀ held ∈ entries.keys, IsKey held)
    (key : IsKey asked) : (merge entries).get? asked = entries.get? asked := by
  induction entries using List.reverseRecOn with
  | nil => rfl
  | append_singleton entries entry ih =>
    have parts := List.forall_mem_append.1 (by simpa only [keys, List.map_append] using each)
    obtain ⟨unrepeated, earlier⟩ := merge_unrepeated parts.1
    have last : IsKey entry.1 := parts.2 entry.1 List.mem_cons_self
    rw [merge_concat, get?_insert unrepeated earlier last key, ih parts.1, get?_append,
      get?_singleton, last.equals_comm key]
    split <;> rfl

/-- What an insertion makes of the entries of a map. An entry of an equal key keeps its place and its
key, under a new key there is one entry more, and all else stays. -/
structure Inserts (entries : Entries) (key value : Value) (result : Entries) : Prop where
  equal : ∀ before held old after, entries = before ++ (held, old) :: after →
    held.equals key = true → result = before ++ (held, value) :: after
  new : (∀ entry ∈ entries, entry.1.equals key = false) → result = entries ++ [(key, value)]
  stays : result.length = entries.length ↔ ∃ entry ∈ entries, entry.1.equals key = true
  grows : result.length = entries.length + 1 ↔ ∀ entry ∈ entries, entry.1.equals key = false

theorem Unrepeated.inserts {entries : Entries} (unrepeated : entries.Unrepeated)
    (each : ∀ held ∈ entries.keys, IsKey held) (key : IsKey new) (value : Value) :
    Inserts entries new value (entries.insert new value) := by
  have equal : ∀ before held old after, entries = before ++ (held, old) :: after →
      held.equals new = true → entries.insert new value = before ++ (held, value) :: after := by
    rintro before held old after rfl same
    apply insert_first _ same
    intro entry member
    have heldKey : IsKey held := each held (by simp [keys])
    have entryKey : IsKey entry.1 := each entry.1 (List.mem_map_of_mem (by simp [member]))
    rw [entryKey.equals_comm key, ← heldKey.equals_congr key entryKey same,
      heldKey.equals_comm entryKey]
    exact unrepeated.around.1 entry member
  rcases new_or_first entries new with apart | ⟨before, held, old, after, rfl, -, same⟩
  · have result : entries.insert new value = entries ++ [(new, value)] := insert_new apart
    refine ⟨equal, fun _ => result, ?_, ?_⟩
    · simp only [result, List.length_append, List.length_singleton, Nat.add_eq_left, one_ne_zero,
        false_iff, not_exists, not_and, Bool.not_eq_true]
      exact apart
    · simp only [result, List.length_append, List.length_singleton, true_iff]
      exact apart
  · have member : (held, old) ∈ before ++ (held, old) :: after := by simp
    have result := equal before held old after rfl same
    have some : ¬ ∀ entry ∈ before ++ (held, old) :: after, entry.1.equals new = false := by
      intro apart
      rw [apart _ member] at same
      cases same
    refine ⟨equal, fun apart => (some apart).elim, ?_, ?_⟩
    · simp only [result, List.length_append, List.length_cons, true_iff]
      exact ⟨_, member, same⟩
    · simp only [result, List.length_append, List.length_cons, some, iff_false]
      omega

end Entries

open Entries

/-- A map that is built over keys never holds two equal keys. What was inserted last under a key is
found under every equal key, other keys find what they found before, and an equal key keeps its place
and its spelling. Alternating keys and values answer alike whether repeated keys are merged or kept. -/
theorem maps_find_what_was_inserted :
    (∀ entries, Built entries → entries.Unrepeated) ∧
      (∀ entries key value asked, Built entries → IsKey key → IsKey asked →
        (entries.insert key value).get? asked =
          if asked.equals key then some value else entries.get? asked) ∧
      (∀ entries key value, Built entries → IsKey key →
        Inserts entries key value (entries.insert key value)) ∧
      ∀ items : List Value, items.length % 2 = 0 →
        ∃ entries merged, pairUp? items = some entries ∧ ofFlat? items = some merged ∧
          ((∀ key ∈ entries.keys, IsKey key) →
            ∀ asked, IsKey asked → entries.get? asked = merged.get? asked) := by
  refine ⟨fun entries built => built.unrepeated.1, ?_, ?_, ?_⟩
  · intro entries key value asked built isKey isKey'
    exact get?_insert built.unrepeated.1 built.unrepeated.2 isKey isKey' value
  · intro entries key value built isKey
    exact built.unrepeated.1.inserts built.unrepeated.2 isKey value
  · intro items even
    obtain ⟨entries, paired⟩ := Option.isSome_iff_exists.1 (pairUp?_isSome_iff.2 even)
    refine ⟨entries, merge entries, paired, by rw [ofFlat?, paired]; rfl, ?_⟩
    exact fun each asked isKey => (get?_merge each isKey).symm

/-- A list and a vector as one key, which a chain of pairs finds, and a new key behind it. -/
theorem maps_find_what_was_inserted_sequences :
    Unrepeated [(list [num 1], str "b"), (num 1, nil)] ∧
      get? [(list [num 1], str "b"), (num 1, nil)] (pair (num 1) nil) = some (str "b") ∧
      (insert [(list [num 1], str "b")] (num 1) nil).length = 2 ∧
      get? [(list [num 1], str "a"), (vec [num 1], str "b")] (pair (num 1) nil) =
        some (str "b") := by
  have one : IsKey (num 1) := by constructor <;> simp [DistinctKeys, ProperEnds, contains_num]
  have listed : IsKey (list [num 1]) := by
    constructor <;> simp [DistinctKeys, ProperEnds, contains_list, contains_num]
  have inVector : IsKey (vec [num 1]) := by
    constructor <;> simp [DistinctKeys, ProperEnds, contains_vec, contains_num]
  have chained : IsKey (pair (num 1) nil) := by
    constructor <;> simp [DistinctKeys, ProperEnds, contains_pair, contains_num, contains_nil]
  have each : ∀ key ∈ keys [(list [num 1], str "a"), (vec [num 1], str "b")], IsKey key := by
    simp [keys, listed, inVector]
  obtain ⟨unrepeated, found, inserts, flat⟩ := maps_find_what_was_inserted
  have merged : ofFlat? [list [num 1], str "a", vec [num 1], str "b"] =
      some [(list [num 1], str "b")] := by cbv
  have built : Built [(list [num 1], str "b")] := .ofFlat rfl each merged
  have longer : insert [(list [num 1], str "b")] (num 1) nil =
      [(list [num 1], str "b"), (num 1, nil)] := by cbv
  refine ⟨longer ▸ unrepeated _ (built.insert one nil), ?_, ?_, ?_⟩
  · rw [← longer, found _ _ _ _ built one chained]
    cbv
  · apply (inserts _ _ nil built one).grows.2
    simp only [List.mem_singleton, forall_eq]
    cbv
  · obtain ⟨entries, merged', paired, same, answers⟩ :=
      flat [list [num 1], str "a", vec [num 1], str "b"] rfl
    cases paired
    rw [merged] at same
    cases same
    rw [answers each _ chained]
    cbv

end MiniLisp
