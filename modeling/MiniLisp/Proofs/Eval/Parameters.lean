import MiniLisp.Eval.Params

/-! Parameters of a function. They are listed by names in a list or a vector, and the marker of the rest
parameter may stand among the names once, before the last one. Only the place of the first marker is
looked at, so the name after it may be the marker again, which is then the name of the rest parameter. -/

namespace MiniLisp

theorem mapM_nameIn_eq_ok_iff {items : List Value} {names : List Symbol} :
    items.mapM (nameIn form) = .ok names ↔ items = names.map .sym := by
  constructor
  · intro named
    induction items generalizing names with
    | nil =>
      cases named
      rfl
    | cons item items ih =>
      rw [List.mapM_cons] at named
      cases item with
      | sym name =>
        cases rest : items.mapM (nameIn form) with
        | error error =>
          rw [rest] at named
          cases named
        | ok others =>
          rw [rest] at named
          cases named
          rw [ih rest, List.map_cons]
      | _ => cases named
  · rintro rfl
    induction names with
    | nil => rfl
    | cons name names ih =>
      rw [List.map_cons, List.mapM_cons, ih]
      rfl

namespace Params

/-- The marker as a name among others. -/
def marker : Symbol := ⟨restMarker⟩

/-- The names that list parameters: the fixed ones, and behind the marker the rest parameter. -/
def spelled (params : Params) : List Symbol :=
  match params.rest with
  | none => params.fixed
  | some rest => params.fixed ++ [marker, rest]

/-- A form that lists names: a list or a vector of symbols. -/
def Lists (form : Value) (names : List Symbol) : Prop :=
  form = .list (names.map .sym) ∨ form = .vec (names.map .sym)

/-- The marker stands nowhere among the names, or once, as the last but one. -/
def MarkedOnce (names : List Symbol) : Prop :=
  marker ∉ names ∨ names.count marker = 1 ∧ ∃ fixed rest, names = fixed ++ [marker, rest]

/-- The marker stands twice among the names, as the last two. -/
def MarkedTwice (names : List Symbol) : Prop :=
  ∃ fixed, marker ∉ fixed ∧ names = fixed ++ [marker, marker]

/-! ### Names and parameters -/

theorem name_eq_restMarker {name : Symbol} : name.name = restMarker ↔ name = marker := by
  cases name
  simp [marker]

theorem ofNames?_spelled {params : Params} (unmarked : marker ∉ params.fixed) :
    ofNames? params.spelled = some params := by
  obtain ⟨fixed, rest⟩ := params
  induction fixed with
  | nil => cases rest <;> rfl
  | cons name fixed ih =>
    have others : marker ∉ fixed := List.not_mem_of_not_mem_cons unmarked
    have first : name.name ≠ restMarker := fun same =>
      List.ne_of_not_mem_cons unmarked (name_eq_restMarker.1 same).symm
    have spelledOut : spelled ⟨name :: fixed, rest⟩ = name :: spelled ⟨fixed, rest⟩ := by
      cases rest <;> rfl
    unfold ofNames?
    simp only [spelledOut, if_neg first, ih others]
    rfl

theorem eq_spelled_of_ofNames? (found : ofNames? names = some params) :
    marker ∉ params.fixed ∧ names = params.spelled := by
  fun_induction ofNames? names generalizing params with
  | case1 =>
    cases found
    exact ⟨List.not_mem_nil, rfl⟩
  | case2 name marked rest =>
    cases found
    exact ⟨List.not_mem_nil, by rw [name_eq_restMarker.1 marked]; rfl⟩
  | case3 => cases found
  | case4 name names unmarked ih =>
    obtain ⟨params', found', rfl⟩ := Option.map_eq_some_iff.1 found
    obtain ⟨others, rfl⟩ := ih found'
    refine ⟨List.not_mem_cons_of_ne_of_not_mem ?_ others, ?_⟩
    · exact fun same => unmarked (name_eq_restMarker.2 same.symm)
    · obtain ⟨fixed, rest⟩ := params'
      cases rest <;> rfl

theorem ofNames?_eq_some_iff : ofNames? names = some params ↔
    marker ∉ params.fixed ∧ names = params.spelled :=
  ⟨eq_spelled_of_ofNames?, fun ⟨unmarked, same⟩ => same ▸ ofNames?_spelled unmarked⟩

theorem exists_ofNames?_iff : (∃ params, ofNames? names = some params) ↔
    MarkedOnce names ∨ MarkedTwice names := by
  simp only [ofNames?_eq_some_iff]
  constructor
  · rintro ⟨⟨fixed, rest⟩, unmarked, rfl⟩
    cases rest with
    | none => exact .inl (.inl unmarked)
    | some rest =>
      by_cases again : rest = marker
      · subst again
        exact .inr ⟨fixed, unmarked, rfl⟩
      · refine .inl (.inr ⟨?_, fixed, rest, rfl⟩)
        simp [spelled, List.count_eq_zero.2 unmarked, again]
  · rintro ((unmarked | ⟨once, fixed, rest, rfl⟩) | ⟨fixed, unmarked, rfl⟩)
    · exact ⟨⟨names, none⟩, unmarked, rfl⟩
    · have unmarked : fixed.count marker = 0 := by
        rw [List.count_append, List.count_cons_self] at once
        omega
      exact ⟨⟨fixed, some rest⟩, List.count_eq_zero.1 unmarked, rfl⟩
    · exact ⟨⟨fixed, some marker⟩, unmarked, rfl⟩

/-! ### Forms that list names -/

theorem ofForm_of_lists (lists : Lists form names) : ofForm form =
    match ofNames? names with
    | some params => .ok params
    | none => .error (.invalidForm .restParameter) := by
  have bracketed : form.bracketed? = some (names.map .sym) := by
    rcases lists with rfl | rfl <;> rfl
  have named : (names.map Value.sym).mapM (nameIn .lambda) = .ok names :=
    mapM_nameIn_eq_ok_iff.2 rfl
  simp only [ofForm, bracketed, named]
  rfl

theorem exists_lists_of_ofForm (found : ofForm form = .ok params) : ∃ names, Lists form names := by
  unfold ofForm at found
  split at found
  · cases found
  · next items bracketed =>
    cases named : items.mapM (nameIn .lambda) with
    | error error =>
      rw [named] at found
      cases found
    | ok names =>
      rw [mapM_nameIn_eq_ok_iff] at named
      subst named
      refine ⟨names, ?_⟩
      unfold Value.bracketed? at bracketed
      split at bracketed
      · cases bracketed
        exact .inl rfl
      · cases bracketed
        exact .inr rfl
      · cases bracketed

theorem ofForm_eq_ok_iff (lists : Lists form names) :
    ofForm form = .ok params ↔ ofNames? names = some params := by
  rw [ofForm_of_lists lists]
  cases ofNames? names <;> simp

/-- Parameters are accepted if and only if they are names in a list or a vector with the marker nowhere,
once and last but one, or as the last two of them; any other names are refused for the marker. The fixed
parameters are the names before it, or all names, and the rest parameter is the name after it. No fixed
parameter is the marker, and the rest parameter is so only if the marker stands twice. -/
theorem parameters_follow_marker (form : Value) :
    ((∃ params, ofForm form = .ok params) ↔
      ∃ names, Lists form names ∧ (MarkedOnce names ∨ MarkedTwice names)) ∧
    ∀ names, Lists form names →
      (¬ (MarkedOnce names ∨ MarkedTwice names) →
        ofForm form = .error (.invalidForm .restParameter)) ∧
      ∀ params, ofForm form = .ok params → names = params.spelled ∧ marker ∉ params.fixed ∧
        (params.rest = some marker ↔ MarkedTwice names) := by
  refine ⟨⟨?_, ?_⟩, fun names lists => ⟨?_, ?_⟩⟩
  · rintro ⟨params, found⟩
    obtain ⟨names, lists⟩ := exists_lists_of_ofForm found
    exact ⟨names, lists, exists_ofNames?_iff.1 ⟨params, (ofForm_eq_ok_iff lists).1 found⟩⟩
  · rintro ⟨names, lists, marked⟩
    obtain ⟨params, found⟩ := exists_ofNames?_iff.2 marked
    exact ⟨params, (ofForm_eq_ok_iff lists).2 found⟩
  · intro unmarked
    have refused : ofNames? names = none :=
      Option.eq_none_iff_forall_ne_some.2 fun params found =>
        unmarked (exists_ofNames?_iff.1 ⟨params, found⟩)
    rw [ofForm_of_lists lists, refused]
  · intro params found
    rw [ofForm_eq_ok_iff lists, ofNames?_eq_some_iff] at found
    obtain ⟨unmarked, rfl⟩ := found
    refine ⟨rfl, unmarked, ?_⟩
    obtain ⟨fixed, rest⟩ := params
    constructor
    · rintro ⟨⟩
      exact ⟨fixed, unmarked, rfl⟩
    · rintro ⟨fixed', unmarked', same⟩
      have twice : ofNames? (spelled ⟨fixed', some marker⟩) = some ⟨fixed', some marker⟩ :=
        ofNames?_spelled unmarked'
      have again : ofNames? (spelled ⟨fixed, rest⟩) = some ⟨fixed, rest⟩ := ofNames?_spelled unmarked
      rw [same] at again
      exact congrArg Params.rest (Option.some.inj (again.symm.trans twice))

/-- The marker in front of the last parameter of a vector. -/
theorem parameters_follow_marker_vector :
    Lists (.vec [.sym ⟨"a"⟩, .sym ⟨"&"⟩, .sym ⟨"b"⟩]) [⟨"a"⟩, ⟨"&"⟩, ⟨"b"⟩] ∧
      ¬ MarkedTwice [⟨"a"⟩, ⟨"&"⟩, ⟨"b"⟩] ∧
      ∃ params, ofForm (.vec [.sym ⟨"a"⟩, .sym ⟨"&"⟩, .sym ⟨"b"⟩]) = .ok params ∧
        params.rest ≠ some marker := by
  obtain ⟨accepted, each⟩ := parameters_follow_marker (.vec [.sym ⟨"a"⟩, .sym ⟨"&"⟩, .sym ⟨"b"⟩])
  have lists : Lists (.vec [.sym ⟨"a"⟩, .sym ⟨"&"⟩, .sym ⟨"b"⟩]) [⟨"a"⟩, ⟨"&"⟩, ⟨"b"⟩] := .inr rfl
  have once : MarkedOnce [⟨"a"⟩, ⟨"&"⟩, ⟨"b"⟩] := .inr ⟨by decide, [⟨"a"⟩], ⟨"b"⟩, rfl⟩
  have notTwice : ¬ MarkedTwice [⟨"a"⟩, ⟨"&"⟩, ⟨"b"⟩] := by
    rintro ⟨fixed, -, same⟩
    have last := congrArg List.getLast? same
    simp [marker, restMarker] at last
  obtain ⟨params, found⟩ := accepted.2 ⟨_, lists, .inl once⟩
  obtain ⟨-, found'⟩ := each _ lists
  obtain ⟨-, -, twice⟩ := found' params found
  exact ⟨lists, notTwice, params, found, fun again => notTwice (twice.1 again)⟩

/-- A marker as the name of the rest parameter. -/
theorem marker_as_rest_parameter :
    ofForm (.list [.sym ⟨"&"⟩, .sym ⟨"&"⟩]) = .ok ⟨[], some ⟨"&"⟩⟩ ∧
      ¬ MarkedOnce [⟨"&"⟩, ⟨"&"⟩] := by
  refine ⟨rfl, ?_⟩
  rintro (unmarked | ⟨once, -⟩)
  · exact unmarked (by decide)
  · exact absurd once (by decide)

end Params

end MiniLisp
