import Mathlib
import MiniLisp.Eval.Primitive

/-! Sums, products and differences. The arguments are taken in one after the other, and each of them
gives a new total. If all of them are numbers and all totals are words, the last total is the result, and
it is exact. Otherwise the first argument that is no number or takes the total beyond the words decides
about the error, even if later arguments would bring the total back. -/

namespace MiniLisp

namespace Number

/-- The numbers between the limits of words. -/
def InRange (exact : Int) : Prop := -wordBound ≤ exact ∧ exact < wordBound

instance : DecidablePred InRange := fun _ => inferInstanceAs (Decidable (_ ∧ _))

theorem inRange_toInt (word : Int64) : InRange word.toInt := ⟨word.le_toInt, word.toInt_lt⟩

theorem exists_ofInt?_of_inRange (fits : InRange exact) :
    ∃ word, ofInt? exact = some word ∧ word.toInt = exact := by
  have found : ofInt? exact = some (Int64.ofInt exact) := if_pos fits
  exact ⟨_, found, ofInt?_eq_some_iff.1 found⟩

theorem ofInt?_of_not_inRange (beyond : ¬ InRange exact) : ofInt? exact = none := if_neg beyond

/-- The first number less all others, and zero if there is none. -/
def exactDifference : List Int → Int
  | [] => 0
  | first :: others => first - others.sum

end Number

namespace Primitive

open Value Number

/-- The exact total of some words. -/
abbrev totalOf (exact : List Int → Int) (words : List Int64) : Int := exact (words.map Int64.toInt)

/-- Whether the totals of some words fit at every place, from the first word to the last one. -/
def StaysWithin (exact : List Int → Int) (words : List Int64) : Prop :=
  ∀ taken, taken <+: words → InRange (totalOf exact taken)

/-- The error at an argument that follows some words: it is no number, or the total leaves the words
there. -/
inductive Fails (primitive : Primitive) (exact : List Int → Int) (words : List Int64) :
    Value → EvalError → Prop where
  | kind (other : ∀ word, argument ≠ num word) :
      Fails primitive exact words argument (.wrongType primitive .number argument)
  | range (beyond : ¬ InRange (totalOf exact (words ++ [word]))) :
      Fails primitive exact words (num word) (.overflow primitive)

/-- What the outcome of an arithmetic primitive must be, given what its arguments come to. -/
structure Totals (primitive : Primitive) (exact : List Int → Int) (arguments : List Value)
    (outcome : Except EvalError Value) : Prop where
  value : ∀ result, outcome = .ok result ↔
    ∃ words n, arguments = words.map num ∧ StaysWithin exact words ∧
      result = num n ∧ n.toInt = totalOf exact words
  error : ∀ error, outcome = .error error ↔
    ∃ words argument after, arguments = words.map num ++ argument :: after ∧
      StaysWithin exact words ∧ Fails primitive exact words argument error

/-! ### The first argument at fault -/

theorem staysWithin_nil (fits : InRange (exact [])) : StaysWithin exact [] := by
  intro taken leading
  rw [List.prefix_nil.1 leading]
  exact fits

theorem staysWithin_concat : StaysWithin exact (words ++ [word]) ↔
    StaysWithin exact words ∧ InRange (totalOf exact (words ++ [word])) := by
  simp only [StaysWithin, List.prefix_concat_iff, forall_eq_or_imp]
  exact and_comm

theorem staysWithin_cons {exact : List Int → Int} : StaysWithin exact (word :: words) ↔
    InRange (exact []) ∧ StaysWithin (fun others => exact (word.toInt :: others)) words := by
  simp only [StaysWithin, List.prefix_cons_iff, forall_eq_or_imp, forall_exists_index, and_imp]
  exact and_congr Iff.rfl ⟨fun each taken leading => each _ taken rfl leading,
    fun each _ taken same leading => same ▸ each taken leading⟩

/-- Either all arguments can be taken in, or one of them is the first at fault. -/
theorem staysWithin_or_fails (primitive : Primitive) (start : InRange (exact []))
    (arguments : List Value) :
    (∃ words, arguments = words.map num ∧ StaysWithin exact words) ∨
      ∃ words argument after error, arguments = words.map num ++ argument :: after ∧
        StaysWithin exact words ∧ Fails primitive exact words argument error := by
  induction arguments using List.reverseRecOn with
  | nil => exact .inl ⟨[], rfl, staysWithin_nil start⟩
  | append_singleton arguments last ih =>
    rcases ih with ⟨words, rfl, within⟩ | ⟨words, argument, after, error, rfl, within, fails⟩
    · by_cases number : ∃ word, last = num word
      · obtain ⟨word, rfl⟩ := number
        by_cases fits : InRange (totalOf exact (words ++ [word]))
        · exact .inl ⟨words ++ [word], by simp, staysWithin_concat.2 ⟨within, fits⟩⟩
        · exact .inr ⟨words, num word, [], _, rfl, within, .range fits⟩
      · exact .inr ⟨words, last, [], _, rfl, within, .kind (not_exists.1 number)⟩
    · exact .inr ⟨words, argument, after ++ [last], error, by simp, within, fails⟩

/-- An outcome is as it must be if it is right where all arguments can be taken in and where one of
them is at fault. -/
theorem Totals.of_cases (outcome : List Value → Except EvalError Value) (start : InRange (exact []))
    (completes : ∀ words, StaysWithin exact words →
      ∃ n : Int64, n.toInt = totalOf exact words ∧ outcome (words.map num) = .ok (num n))
    (stops : ∀ words argument after error, StaysWithin exact words →
      Fails primitive exact words argument error →
        outcome (words.map num ++ argument :: after) = .error error)
    (arguments : List Value) : Totals primitive exact arguments (outcome arguments) := by
  constructor
  · intro result
    constructor
    · intro ended
      rcases staysWithin_or_fails primitive start arguments with
        ⟨words, rfl, within⟩ | ⟨words, argument, after, error, rfl, within, fails⟩
      · obtain ⟨n, same, completed⟩ := completes words within
        rw [completed] at ended
        exact ⟨words, n, rfl, within, (Except.ok.inj ended).symm, same⟩
      · rw [stops words argument after error within fails] at ended
        cases ended
    · rintro ⟨words, n, rfl, within, rfl, same⟩
      obtain ⟨n', same', completed⟩ := completes words within
      rw [completed, Int64.toInt_inj.1 (same.trans same'.symm)]
  · intro error
    constructor
    · intro ended
      rcases staysWithin_or_fails primitive start arguments with
        ⟨words, rfl, within⟩ | ⟨words, argument, after, error', rfl, within, fails⟩
      · obtain ⟨n, -, completed⟩ := completes words within
        rw [completed] at ended
        cases ended
      · rw [stops words argument after error' within fails] at ended
        exact ⟨words, argument, after, rfl, within, Except.error.inj ended ▸ fails⟩
    · rintro ⟨words, argument, after, rfl, within, fails⟩
      exact stops words argument after error within fails

/-! ### The fold over the arguments -/

theorem foldNumbers_num (found : combine total word = some total') (rest : List Value) :
    foldNumbers primitive combine total (num word :: rest) =
      foldNumbers primitive combine total' rest := by
  rw [foldNumbers]
  simp only [number, bind, Except.bind, found]

theorem foldNumbers_beyond (beyond : combine total word = none) (rest : List Value) :
    foldNumbers primitive combine total (num word :: rest) = .error (.overflow primitive) := by
  rw [foldNumbers]
  simp only [number, bind, Except.bind, beyond]

theorem totalOf_concat {operation : Int → Int → Int}
    (step : ∀ numbers n, exact (numbers ++ [n]) = operation (exact numbers) n) (words : List Int64)
    (word : Int64) : totalOf exact (words ++ [word]) = operation (totalOf exact words) word.toInt := by
  rw [totalOf, List.map_append, List.map_singleton, step]

section
variable {primitive : Primitive} {operation : Int → Int → Int} {exact : List Int → Int}
  {combine : Int64 → Int64 → Option Int64} {total : Int64}
  (combines : ∀ left right, combine left right = ofInt? (operation left.toInt right.toInt))
  (step : ∀ numbers n, exact (numbers ++ [n]) = operation (exact numbers) n)
  (start : total.toInt = exact [])
include combines step start

/-- The fold takes in words whose totals fit, and goes on with their exact total. -/
theorem foldNumbers_words (within : StaysWithin exact words) :
    ∃ total' : Int64, total'.toInt = totalOf exact words ∧
      ∀ rest, foldNumbers primitive combine total (words.map num ++ rest) =
        foldNumbers primitive combine total' rest := by
  induction words using List.reverseRecOn with
  | nil => exact ⟨total, start, fun _ => rfl⟩
  | append_singleton words word ih =>
    obtain ⟨within, fits⟩ := staysWithin_concat.1 within
    obtain ⟨total', same, goesOn⟩ := ih within
    rw [totalOf_concat step, ← same] at fits ⊢
    obtain ⟨total'', found, exactly⟩ := exists_ofInt?_of_inRange fits
    refine ⟨total'', exactly, fun rest => ?_⟩
    rw [List.map_append, List.map_singleton, List.append_assoc, goesOn]
    exact foldNumbers_num ((combines total' word).trans found) rest

theorem foldNumbers_completes (within : StaysWithin exact words) :
    ∃ n : Int64, n.toInt = totalOf exact words ∧
      num <$> foldNumbers primitive combine total (words.map num) = .ok (num n) := by
  obtain ⟨n, same, goesOn⟩ := foldNumbers_words combines step start within
  have ended := goesOn []
  rw [List.append_nil] at ended
  exact ⟨n, same, by rw [ended]; rfl⟩

/-- The kind of an argument is looked at first, then what becomes of the total. -/
theorem foldNumbers_stops (within : StaysWithin exact words)
    (fails : Fails primitive exact words argument error) (after : List Value) :
    num <$> foldNumbers primitive combine total (words.map num ++ argument :: after) =
      .error error := by
  obtain ⟨total', same, goesOn⟩ := foldNumbers_words combines step start within
  rw [goesOn]
  cases fails with
  | kind other =>
    rw [foldNumbers, number_error other]
    rfl
  | @range word beyond =>
    rw [totalOf_concat step, ← same] at beyond
    have leaves := (combines total' word).trans (ofInt?_of_not_inRange beyond)
    rw [foldNumbers_beyond leaves]
    rfl

theorem foldNumbers_totals (arguments : List Value) :
    Totals primitive exact arguments (num <$> foldNumbers primitive combine total arguments) := by
  refine Totals.of_cases (fun arguments => num <$> foldNumbers primitive combine total arguments)
    (start ▸ inRange_toInt total) ?_ ?_ arguments
  · exact fun words within => foldNumbers_completes combines step start within
  · exact fun words argument after error within fails =>
      foldNumbers_stops combines step start within fails after

end

/-! ### The three primitives -/

theorem sum_totals (arguments : List Value) : Totals add List.sum arguments (add.result arguments) :=
  foldNumbers_totals (fun _ _ => rfl) (by simp) rfl arguments

theorem product_totals (arguments : List Value) :
    Totals mul List.prod arguments (mul.result arguments) :=
  foldNumbers_totals (fun _ _ => rfl) (by simp) rfl arguments

theorem exactDifference_step (first : Int) (numbers : List Int) (n : Int) :
    exactDifference (first :: (numbers ++ [n])) = exactDifference (first :: numbers) - n := by
  simp only [exactDifference, List.sum_append, List.sum_singleton]
  omega

/-- The first argument is the start from which the others are taken away, so the words after it are
those of the fold. -/
theorem difference_totals (arguments : List Value) :
    Totals sub exactDifference arguments (sub.result arguments) := by
  have zero : InRange (exactDifference []) := inRange_toInt 0
  have alone : ∀ word : Int64, word.toInt = exactDifference [word.toInt] := fun word => by
    simp [exactDifference]
  refine Totals.of_cases sub.result zero ?_ ?_ arguments
  · intro words within
    cases words with
    | nil => exact ⟨0, rfl, rfl⟩
    | cons word words =>
      exact foldNumbers_completes (fun _ _ => rfl) (exactDifference_step word.toInt) (alone word)
        (staysWithin_cons.1 within).2
  · intro words argument after error within fails
    cases words with
    | nil =>
      cases fails with
      | kind other =>
        rw [List.map_nil, List.nil_append, result, difference, number_error other]
        rfl
      | @range word beyond =>
        rw [List.nil_append, totalOf, List.map_singleton, ← alone word] at beyond
        exact (beyond (inRange_toInt word)).elim
    | cons word words =>
      have later : Fails sub (fun others => exactDifference (word.toInt :: others)) words argument
          error := by
        cases fails with
        | kind other => exact .kind other
        | range beyond => exact .range beyond
      exact foldNumbers_stops (fun _ _ => rfl) (exactDifference_step word.toInt) (alone word)
        (staysWithin_cons.1 within).2 later after

theorem message_wrongType_number (primitive : Primitive) (argument : Value) :
    (EvalError.wrongType primitive .number argument).message =
      primitive.name ++ ": expected number, got " ++ argument.typeName := by
  have parts : ": expected number, got " = ": expected " ++ "number" ++ ", got " := by decide
  change primitive.name ++ ": expected " ++ "number" ++ ", got " ++ argument.typeName = _
  simp only [parts, String.append_assoc]

/-- The sum, the product and the difference of some arguments are exact, and there is one if and only if
all arguments are numbers and all totals on the way are words. Otherwise the first argument at which
this fails gives the error, which names the kind of an argument that is no number. -/
theorem totals_are_exact :
    (∀ arguments, Totals add List.sum arguments (add.result arguments)) ∧
      (∀ arguments, Totals mul List.prod arguments (mul.result arguments)) ∧
      (∀ arguments, Totals sub exactDifference arguments (sub.result arguments)) ∧
      ∀ (primitive : Primitive) argument, (EvalError.wrongType primitive .number argument).message =
        primitive.name ++ ": expected number, got " ++ argument.typeName :=
  ⟨sum_totals, product_totals, difference_totals, message_wrongType_number⟩

/-- A sum that leaves the words before it would come back and meet a string, and a difference that meets
a keyword before it would leave them. The error about an argument of any kind but a number has the name of
this kind. -/
theorem totals_are_exact_first_fault :
    add.result [num Int64.maxValue, num 1, num (-1), str "1"] = .error (.overflow add) ∧
      sub.result [num Int64.minValue, sym ⟨":one"⟩, num 1] =
        .error (.wrongType sub .number (sym ⟨":one"⟩)) ∧
      ∀ sample ∈ [(nil, "nil"), (bool true, "boolean"), (str "1", "string"), (sym ⟨"one"⟩, "symbol"),
          (sym ⟨":one"⟩, "keyword"), (pair (num 1) nil, "pair"), (.list [num 1], "list"),
          (vec [num 1], "vector"), (map (.made 0) [], "hash-map"), (prim sub, "function"),
          (closure 0 ⟨[], none⟩ nil 0, "function")],
        ∃ error, sub.result [num 0, sample.1] = .error error ∧
          error.message = "-: expected number, got " ++ sample.2 := by
  obtain ⟨sums, -, differences, worded⟩ := totals_are_exact
  have within {exact : List Int → Int} {word : Int64} (zero : InRange (exact []))
      (fits : InRange (exact [word.toInt])) : StaysWithin exact [word] :=
    staysWithin_cons.2 ⟨zero, staysWithin_nil fits⟩
  refine ⟨((sums _).error _).2 ?_, ((differences _).error _).2 ?_, ?_⟩
  · exact ⟨[Int64.maxValue], num 1, [num (-1), str "1"], rfl, within (by decide) (by decide),
      .range (by decide)⟩
  · exact ⟨[Int64.minValue], sym ⟨":one"⟩, [num 1], rfl, within (by decide) (by decide),
      .kind nofun⟩
  · intro sample member
    obtain ⟨kind, other⟩ : sample.1.typeName = sample.2 ∧ sample.2 ≠ "number" := by
      revert sample
      decide
    have noNumber : ∀ word, sample.1 ≠ num word := fun word same => other (by rw [← kind, same]; rfl)
    refine ⟨_, ((differences _).error _).2 ⟨[0], sample.1, [], rfl, within (by decide) (by decide),
      .kind noNumber⟩, ?_⟩
    rw [worded, kind]
    rfl

end Primitive

end MiniLisp
