import MiniLisp.Proofs.Token.Spelling

/-! Texts that are written token by token. Each token stands in its spelling, and trivia follow it. The
trivia may be left out behind the last token only, since an atom would run on into the next one. Such a
text spells its tokens at the offsets where they were written. -/

namespace MiniLisp

/-! ### Trivia end every token -/

/-- Trivia start with a character that neither goes on with an atom nor makes another mark of a
tilde. -/
theorem Trivia.start (trivia : Trivia gap) (some : gap ≠ []) :
    ∃ c rest, gap = c :: rest ∧ continuesAtom c = false ∧ c ≠ '@' := by
  cases trivia with
  | nil => exact (some rfl).elim
  | @spacing c gap separates rest =>
    refine ⟨c, gap, rfl, ?_, ?_⟩
    · simp [continuesAtom, isDelimiter, separates]
    · rintro rfl
      cases separates
  | comment => exact ⟨';', _, rfl, rfl, by decide⟩

namespace TokenKind

/-- Every token ends before trivia. -/
theorem endsBefore_trivia (kind : TokenKind) (trivia : Trivia gap) (some : gap ≠ [])
    (text : List Char) : kind.EndsBefore (gap ++ text) := by
  obtain ⟨c, rest, rfl, stops, other⟩ := trivia.start some
  cases kind with
  | atom =>
    intro d others same
    cases same
    exact stops
  | shorthand mark =>
    cases mark with
    | unquote =>
      intro others same
      cases same
      exact other rfl
    | _ => trivial
  | _ => trivial

/-- Every token ends before the end of the text. -/
theorem endsBefore_nil (kind : TokenKind) : kind.EndsBefore [] := by
  cases kind with
  | atom =>
    intro c rest same
    cases same
  | shorthand mark =>
    cases mark with
    | unquote =>
      intro rest same
      cases same
    | _ => trivial
  | _ => trivial

end TokenKind

/-! ### Written texts -/

/-- A token to be written, with the trivia behind it. -/
structure Piece where
  kind : TokenKind
  gap : List Char
  lexical : kind.IsLexical
  trivia : Trivia gap

namespace Piece

/-- The characters of some pieces. -/
def textOf : List Piece → List Char
  | [] => []
  | piece :: pieces => piece.kind.spelling ++ (piece.gap ++ textOf pieces)

/-- The tokens of some pieces that are written from an offset on. -/
def tokensFrom (offset : Nat) : List Piece → List Token
  | [] => []
  | piece :: pieces =>
    let stop := offset + byteLength piece.kind.spelling
    ⟨piece.kind, ⟨offset, stop⟩⟩ :: tokensFrom (stop + byteLength piece.gap) pieces

/-- Pieces with trivia between neighbours spell their tokens. -/
theorem spells_textOf (apart : ∀ piece ∈ pieces.dropLast, piece.gap ≠ []) (offset : Nat) :
    Spells offset (tokensFrom offset pieces) (textOf pieces) := by
  induction pieces generalizing offset with
  | nil => exact .nil
  | cons piece pieces ih =>
    have later : ∀ other ∈ pieces.dropLast, other.gap ≠ [] := by
      intro other member
      cases pieces with
      | nil => cases member
      | cons next pieces => exact apart other (List.mem_cons_of_mem _ member)
    have ends : piece.kind.EndsBefore (piece.gap ++ textOf pieces) := by
      by_cases empty : piece.gap = []
      · -- Only the last piece may have no trivia behind it.
        cases pieces with
        | nil =>
          rw [empty]
          exact piece.kind.endsBefore_nil
        | cons next pieces => exact (apart piece List.mem_cons_self empty).elim
      · exact piece.kind.endsBefore_trivia piece.trivia empty _
    exact .token piece.lexical ends (.gap piece.trivia (ih later _))

theorem kind_tokensFrom (offset : Nat) (pieces : List Piece) :
    (tokensFrom offset pieces).map Token.kind = pieces.map Piece.kind := by
  induction pieces generalizing offset with
  | nil => rfl
  | cons piece pieces ih => rw [tokensFrom, List.map_cons, ih, List.map_cons]

end Piece

/-- A text that is written token by token: trivia, and tokens with trivia behind each, which may be
empty behind the last one only. -/
structure Written where
  lead : List Char
  pieces : List Piece
  trivia : Trivia lead
  apart : ∀ piece ∈ pieces.dropLast, piece.gap ≠ []

namespace Written

/-- What is written. -/
def text (written : Written) : String := String.ofList (written.lead ++ Piece.textOf written.pieces)

/-- The kinds of the tokens that are written. -/
def kinds (written : Written) : List TokenKind := written.pieces.map Piece.kind

/-- The tokens that are written, each with its place. -/
def tokens (written : Written) : List Token :=
  Piece.tokensFrom (byteLength written.lead) written.pieces

/-- Cutting a written text gives its tokens. -/
theorem tokenize_text (written : Written) : tokenize written.text = .ok written.tokens := by
  have spelled := Piece.spells_textOf written.apart (0 + byteLength written.lead)
  rw [tokenize, text, String.toList_ofList, (Spells.gap written.trivia spelled).cut, Nat.zero_add]
  rfl

theorem kindsOf_tokens (written : Written) : written.tokens.map Token.kind = written.kinds :=
  Piece.kind_tokensFrom _ written.pieces

end Written

end MiniLisp
