import Mathlib.Data.Prod.Lex
import PascalCheck.Proofs.Token.Partition

/-! # The order of a source text

A text is read from its first character to its last, so that what is read later stands at a later
line, or at a later column of the same line.  `Place.spot` is the line and the column in that order.
Since no piece is empty, pieces begin at later and later spots (`Piece.pairwise_placed`), and with
them the tokens and the diagnostics of a source, which all stand between its first character and its
end. -/
namespace PascalCheck

/-! ## Spots -/

/-- The line and the column of a place; earlier lines come first. -/
def Place.spot (place : Place) : Int ×ₗ Int :=
  toLex ((place.line : Int), (place.column : Int))

/-- The line and the column of a token. -/
def Token.spot (token : Token) : Int ×ₗ Int :=
  toLex (token.line, token.column)

/-- The line and the column of a diagnostic. -/
def Diagnostic.spot (d : Diagnostic) : Int ×ₗ Int :=
  toLex (d.line, d.column)

namespace Place
variable {place other : Place}

theorem spot_lt_past (place : Place) (c : Char) : place.spot < (place.past c).spot := by
  rw [spot, spot, Prod.Lex.toLex_lt_toLex]
  by_cases hc : c = '\n'
  · left
    simp only [past, if_pos hc]
    omega
  · right
    simp only [past, if_neg hc, true_and]
    omega

theorem spot_le_pastAll (place : Place) (cs : List Char) : place.spot ≤ (place.pastAll cs).spot := by
  induction cs generalizing place with
  | nil => exact le_refl _
  | cons c rest ih => exact (spot_lt_past place c).le.trans (ih _)

theorem spot_lt_pastAll (place : Place) {cs : List Char} (h : cs ≠ []) :
    place.spot < (place.pastAll cs).spot := by
  obtain ⟨c, rest, rfl⟩ := List.exists_cons_of_ne_nil h
  exact (spot_lt_past place c).trans_le (spot_le_pastAll _ rest)

/-- What is not later is not on a later line. -/
theorem line_le_of_spot_le (h : place.spot ≤ other.spot) : place.line ≤ other.line := by
  have hline := Prod.Lex.monotone_fst _ _ h
  exact Int.ofNat_le.mp hline

/-- Columns count from one. -/
theorem one_le_column_pastAll (h : 1 ≤ place.column) (cs : List Char) :
    1 ≤ (place.pastAll cs).column := by
  induction cs generalizing place with
  | nil => exact h
  | cons c rest ih =>
    refine ih ?_
    unfold past
    split
    · exact Nat.le_refl 1
    · exact Nat.le_succ_of_le h

end Place

/-! ## Pieces -/

namespace Piece

/-- Where a text ends that consists of the pieces. -/
def finish (place : Place) (pieces : List Piece) : Place :=
  place.pastAll (pieces.flatMap source)

/-- A piece begins no earlier than the text, and before its end. -/
theorem spot_of_mem_placed {place : Place} {pieces : List Piece} {p : PlacedPiece}
    (hne : ∀ piece ∈ pieces, piece.source ≠ []) (h : p ∈ placed place pieces) :
    place.spot ≤ p.place.spot ∧ p.place.spot < (finish place pieces).spot := by
  induction pieces generalizing place with
  | nil => cases h
  | cons piece rest ih =>
    have hend : finish place (piece :: rest) = finish (place.pastAll piece.source) rest := by
      simp only [finish, List.flatMap_cons, Place.pastAll_append]
    have hfirst := Place.spot_lt_pastAll place (hne piece List.mem_cons_self)
    rw [hend]
    rcases List.mem_cons.mp h with rfl | hrest
    · refine ⟨le_refl _, ?_⟩
      exact hfirst.trans_le (Place.spot_le_pastAll _ _)
    · have hlater := ih (fun q hq => hne q (List.mem_cons_of_mem _ hq)) hrest
      exact ⟨hfirst.le.trans hlater.1, hlater.2⟩

/-- A piece begins behind some part of the text. -/
theorem exists_pastAll_of_mem_placed {place : Place} {pieces : List Piece} {p : PlacedPiece}
    (h : p ∈ placed place pieces) : ∃ before, p.place = place.pastAll before := by
  induction pieces generalizing place with
  | nil => cases h
  | cons piece rest ih =>
    rcases List.mem_cons.mp h with rfl | hrest
    · exact ⟨[], rfl⟩
    · obtain ⟨before, hbefore⟩ := ih hrest
      exact ⟨piece.source ++ before, by rw [hbefore, Place.pastAll_append]⟩

/-- Each piece begins later than those before it. -/
theorem pairwise_placed (place : Place) {pieces : List Piece}
    (hne : ∀ piece ∈ pieces, piece.source ≠ []) :
    (placed place pieces).Pairwise (·.place.spot < ·.place.spot) := by
  induction pieces generalizing place with
  | nil => exact .nil
  | cons piece rest ih =>
    have hrest : ∀ q ∈ rest, q.source ≠ [] := fun q hq => hne q (List.mem_cons_of_mem _ hq)
    refine .cons (fun p hp => ?_) (ih _ hrest)
    have hfirst := Place.spot_lt_pastAll place (hne piece List.mem_cons_self)
    exact hfirst.trans_le (spot_of_mem_placed hrest hp).1

end Piece

namespace PlacedPiece
variable {p : PlacedPiece}

theorem spot_of_token? {t : Token} (h : p.token? = some t) : t.spot = p.place.spot := by
  unfold token? at h
  split at h
  · cases h
    rfl
  · cases h

theorem spot_of_diagnostic? {d : Diagnostic} (h : p.diagnostic? = some d) :
    d.spot = p.place.spot ∧ d.phase = .lexical := by
  unfold diagnostic? at h
  split at h
  · cases h
    exact ⟨rfl, rfl⟩
  · cases h

end PlacedPiece

/-! ## Sources -/

namespace Lexed

/-- The pieces of a source, each where it begins. -/
def pieces (source : String) : List PlacedPiece :=
  Piece.placed .first (Piece.split source.toList)

variable {source : String}

theorem lexemes_ofSource (source : String) :
    (ofSource source).lexemes = (pieces source).filterMap PlacedPiece.token? := rfl

theorem diagnostics_ofSource (source : String) :
    (ofSource source).diagnostics = (pieces source).filterMap PlacedPiece.diagnostic? := rfl

theorem source_ne_nil (source : String) :
    ∀ piece ∈ Piece.split source.toList, piece.source ≠ [] :=
  Piece.source_ne_nil_of_partition (Piece.partition_split source.toList)

theorem pairwise_pieces (source : String) :
    (pieces source).Pairwise (·.place.spot < ·.place.spot) :=
  Piece.pairwise_placed .first (source_ne_nil source)

/-- A piece of a source begins between its first character and its end. -/
theorem spot_of_mem_pieces {p : PlacedPiece} (h : p ∈ pieces source) :
    Place.first.spot ≤ p.place.spot ∧ p.place.spot < (ofSource source).finish.spot := by
  have hspot := Piece.spot_of_mem_placed (source_ne_nil source) h
  rwa [Piece.finish, Piece.flatMap_split] at hspot

/-- **Tokens stand at later and later places, and the end mark behind them all.** -/
theorem pairwise_tokens (source : String) :
    (ofSource source).tokens.Pairwise (·.spot < ·.spot) := by
  rw [tokens, List.pairwise_append]
  refine ⟨?_, List.pairwise_singleton _ _, fun t ht last hlast => ?_⟩
  · rw [lexemes_ofSource]
    refine (pairwise_pieces source).filterMap _ fun p q hpq t ht u hu => ?_
    rw [PlacedPiece.spot_of_token? ht, PlacedPiece.spot_of_token? hu]
    exact hpq
  · obtain rfl := List.mem_singleton.mp hlast
    obtain ⟨p, hp, hpt⟩ := List.mem_filterMap.mp ht
    rw [PlacedPiece.spot_of_token? hpt]
    exact (spot_of_mem_pieces hp).2

/-- **Characters that begin no token are reported at later and later places.** -/
theorem pairwise_diagnostics (source : String) :
    (ofSource source).diagnostics.Pairwise (·.spot < ·.spot) := by
  rw [diagnostics_ofSource]
  refine (pairwise_pieces source).filterMap _ fun p q hpq d hd e he => ?_
  rw [(PlacedPiece.spot_of_diagnostic? hd).1, (PlacedPiece.spot_of_diagnostic? he).1]
  exact hpq

/-- Every token has a column, the end mark too. -/
theorem one_le_column_of_mem_tokens {t : Token} (h : t ∈ (ofSource source).tokens) :
    1 ≤ t.column := by
  rcases List.mem_append.mp h with hlexeme | hmark
  · obtain ⟨p, hp, ht⟩ := List.mem_filterMap.mp hlexeme
    have hcolumn : t.column = p.place.column := congrArg Prod.snd (PlacedPiece.spot_of_token? ht)
    obtain ⟨before, hbefore⟩ := Piece.exists_pastAll_of_mem_placed hp
    rw [hcolumn, hbefore]
    exact Int.ofNat_le.mpr (Place.one_le_column_pastAll (Nat.le_refl 1) before)
  · obtain rfl := List.mem_singleton.mp hmark
    exact Int.ofNat_le.mpr (Place.one_le_column_pastAll (Nat.le_refl 1) source.toList)

theorem phase_of_mem_diagnostics {d : Diagnostic} (h : d ∈ (ofSource source).diagnostics) :
    d.phase = .lexical := by
  obtain ⟨p, -, hd⟩ := List.mem_filterMap.mp h
  exact (PlacedPiece.spot_of_diagnostic? hd).2

end Lexed

/-! ## Lines -/

/-- The line is one of the source's. -/
def IsLineOf (source : String) (line : Int) : Prop :=
  1 ≤ line ∧ line ≤ 1 + source.toList.count '\n'

namespace IsLineOf
variable {source : String}

theorem of_spot {place : Place} (hfirst : Place.first.spot ≤ place.spot)
    (hfinish : place.spot ≤ (Lexed.ofSource source).finish.spot) : IsLineOf source place.line := by
  have hleast := Place.line_le_of_spot_le hfirst
  have hmost := Place.line_le_of_spot_le hfinish
  have hlines : (Lexed.ofSource source).finish.line = 1 + source.toList.count '\n' := by
    simp only [Lexed.ofSource, Place.pastAll_first, Place.behind]
  rw [hlines] at hmost
  have hone : Place.first.line = 1 := rfl
  constructor <;> omega

theorem of_mem_pieces {p : PlacedPiece} (h : p ∈ Lexed.pieces source) :
    IsLineOf source p.place.line :=
  have hspot := Lexed.spot_of_mem_pieces h
  of_spot hspot.1 hspot.2.le

/-- Every token is on a line of the source, the end mark too. -/
theorem of_mem_tokens {t : Token} (h : t ∈ (Lexed.ofSource source).tokens) :
    IsLineOf source t.line := by
  rcases List.mem_append.mp h with hlexeme | hmark
  · obtain ⟨p, hp, ht⟩ := List.mem_filterMap.mp hlexeme
    have hline : t.line = p.place.line := congrArg Prod.fst (PlacedPiece.spot_of_token? ht)
    rw [hline]
    exact of_mem_pieces hp
  · obtain rfl := List.mem_singleton.mp hmark
    exact of_spot (Place.spot_le_pastAll _ _) (le_refl _)

theorem of_mem_diagnostics {d : Diagnostic} (h : d ∈ (Lexed.ofSource source).diagnostics) :
    IsLineOf source d.line := by
  obtain ⟨p, hp, hd⟩ := List.mem_filterMap.mp h
  have hline : d.line = p.place.line := congrArg Prod.fst (PlacedPiece.spot_of_diagnostic? hd).1
  rw [hline]
  exact of_mem_pieces hp

end IsLineOf
end PascalCheck
