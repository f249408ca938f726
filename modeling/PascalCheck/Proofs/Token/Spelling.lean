import PascalCheck.Token.Lexing

/-! Every token of a source text has a spelling, up to strings that say nothing. -/
namespace PascalCheck

namespace PieceKind

/-- A lexeme has a spelling, unless it is a string. -/
def IsSpelled (kind : PieceKind) : Prop :=
  ∀ token text, kind = .lexeme token text → token ≠ .stringLiteral → text ≠ ""

end PieceKind

namespace Piece

/-- A number has the digit it begins with. -/
theorem isSpelled_number {c : Char} (h : isDigit c = true) (rest : List Char) :
    (number (c :: rest)).1.kind.IsSpelled := by
  intro token text hk _
  unfold number at hk
  split at hk
  · split at hk
    · cases hk
      simp
    · cases hk
      simp [h]
  · cases hk
    simp [h]

/-- A word is a reserved one or has the letter it begins with. -/
theorem isSpelled_word {c : Char} (h : beginsWord c = true) (rest : List Char) :
    (word (c :: rest)).1.kind.IsSpelled := by
  intro token text hk _
  have hc : continuesWord c = true := by simp [continuesWord, h]
  simp only [word] at hk
  -- The word is reserved, or it is a name that has at least the first character.
  split at hk
  next reserved _ =>
    cases hk
    cases reserved <;> decide
  next =>
    cases hk
    simp [hc]

theorem isSpelled_single (c : Char) : (single c).kind.IsSpelled := by
  intro token text hk _
  unfold single at hk
  split at hk
  · cases hk
    simp
  · cases hk

/-- A mark is one or two characters long. -/
theorem isSpelled_mark (c : Char) (rest : List Char) : (mark c rest).1.kind.IsSpelled := by
  unfold mark
  split
  · exact isSpelled_single c
  · split
    · intro token text hk _
      cases hk
      simp
    · exact isSpelled_single c

/-- Whatever the first character begins has a spelling, or is no lexeme, or is a string. -/
theorem isSpelled_first (c : Char) (rest : List Char) : (first c rest).1.kind.IsSpelled := by
  unfold first
  split
  · intro token text hk
    cases hk
  · split
    · intro token text hk
      cases hk
    · split
      · intro token text hk hs
        cases hk
        exact absurd rfl hs
      · split
        next hd => exact isSpelled_number hd rest
        next =>
          split
          next hw => exact isSpelled_word hw rest
          next => exact isSpelled_mark c rest

theorem isSpelled_split (cs : List Char) : ∀ p ∈ split cs, p.kind.IsSpelled := by
  fun_induction split cs with
  | case1 => simp
  | case2 c rest ih =>
    intro p hp
    obtain rfl | hp := List.mem_cons.mp hp
    · exact isSpelled_first c rest
    · exact ih p hp

/-- Placing the pieces of a text adds none. -/
theorem piece_mem_of_placed {place : Place} {pieces : List Piece} {p : PlacedPiece}
    (h : p ∈ placed place pieces) : p.piece ∈ pieces := by
  induction pieces generalizing place with
  | nil => cases h
  | cons piece rest ih =>
    obtain rfl | h := List.mem_cons.mp h
    · exact List.mem_cons_self
    · exact List.mem_cons_of_mem piece (ih h)

end Piece

/-- **The tokens of a source have a spelling.** -/
theorem Lexed.text_ne_of_mem {source : String} {t : Token} (h : t ∈ (ofSource source).lexemes)
    (hs : t.kind ≠ .stringLiteral) : t.text ≠ "" := by
  obtain ⟨p, hp, ht⟩ := List.mem_filterMap.mp h
  have hspelled := Piece.isSpelled_split _ p.piece (Piece.piece_mem_of_placed hp)
  unfold PlacedPiece.token? at ht
  split at ht
  next kind text hk =>
    cases ht
    exact hspelled kind text hk hs
  next => cases ht

end PascalCheck
