import Mathlib.Data.List.Basic
import PascalCheck.Proofs.Token.Order
import PascalCheck.Proofs.Token.Separation

/-! # Reading line by line

Where a line ends, reading starts anew: nothing that is read in front of a newline looks beyond it,
and nothing behind it depends on what is in front.  So the pieces of a text with a newline in it are
those of the two parts, with the newline between them (`Piece.split_append_newline`), unless a
string or a comment is still open where the first part ends.  The places behind the newline are
those of the second part by itself, moved down by the first part and the newline (`Place.moved`),
and so are its tokens and diagnostics (`Lexed.ofSource_append_newline`). -/
namespace PascalCheck

/-! ## Places further down -/

/-- The place when so many characters and lines come in front of the text. -/
def Place.moved (offset lines : Nat) (place : Place) : Place :=
  ⟨place.offset + offset, place.line + lines, place.column⟩

/-- The token when so many characters and lines come in front of the text. -/
def Token.moved (offset lines : Nat) (token : Token) : Token :=
  { token with start := token.start + offset, line := token.line + lines }

/-- The diagnostic when so many lines come in front of the text. -/
def Diagnostic.moved (lines : Nat) (d : Diagnostic) : Diagnostic :=
  { d with line := d.line + lines }

/-- The piece when so many characters and lines come in front of the text. -/
def PlacedPiece.moved (offset lines : Nat) (p : PlacedPiece) : PlacedPiece :=
  ⟨p.place.moved offset lines, p.piece⟩

section
variable (offset lines : Nat)

namespace Place

theorem past_moved (place : Place) (c : Char) :
    (place.moved offset lines).past c = (place.past c).moved offset lines := by
  by_cases hc : c = '\n'
  · simp only [past, if_pos hc, moved, Nat.add_right_comm _ 1]
  · simp only [past, if_neg hc, moved, Nat.add_right_comm _ 1]

theorem pastAll_moved (place : Place) (cs : List Char) :
    (place.moved offset lines).pastAll cs = (place.pastAll cs).moved offset lines := by
  induction cs generalizing place with
  | nil => rfl
  | cons c rest ih => rw [pastAll_cons, past_moved, ih, pastAll_cons]

/-- Behind a newline a text begins as at its start, further down. -/
theorem pastAll_newline (cs : List Char) :
    first.pastAll (cs ++ ['\n']) = first.moved (cs.length + 1) (1 + cs.count '\n') := by
  rw [pastAll_first]
  simp only [behind, moved, first, List.length_append, List.count_append, List.reverse_append]
  simp
  omega

end Place

namespace PlacedPiece

theorem token?_moved (p : PlacedPiece) :
    (p.moved offset lines).token? = p.token?.map (·.moved offset lines) := by
  obtain ⟨place, kind, source⟩ := p
  cases kind with
  | lexeme kind text => simp [token?, moved, Place.moved, Token.moved]
  | blank | comment | unrecognized => rfl

theorem diagnostic?_moved (p : PlacedPiece) :
    (p.moved offset lines).diagnostic? = p.diagnostic?.map (·.moved lines) := by
  obtain ⟨place, kind, source⟩ := p
  cases kind with
  | unrecognized c => simp [diagnostic?, moved, Place.moved, Diagnostic.moved]
  | blank | comment | lexeme => rfl

end PlacedPiece

namespace Piece

theorem placed_moved (place : Place) (pieces : List Piece) :
    placed (place.moved offset lines) pieces =
      (placed place pieces).map (·.moved offset lines) := by
  induction pieces generalizing place with
  | nil => rfl
  | cons piece rest ih =>
    rw [placed, Place.pastAll_moved, ih]
    rfl

theorem placed_append (place : Place) (pieces more : List Piece) :
    placed place (pieces ++ more) =
      placed place pieces ++ placed (place.pastAll (pieces.flatMap source)) more := by
  induction pieces generalizing place with
  | nil => rfl
  | cons piece rest ih =>
    rw [List.cons_append, placed, ih, placed, List.flatMap_cons, Place.pastAll_append,
      List.cons_append]

end Piece
end

/-! ## Two parts of a text -/

/-- The text ends in a string or a comment that has no closer. -/
def EndsUnclosed (source : String) : Prop :=
  ∃ piece, (Piece.split source.toList).getLast? = some piece ∧ piece.IsUnclosed

namespace Piece

/-- The piece that a newline is. -/
def newline : Piece := ⟨.blank, ['\n']⟩

/-- The parts of a text in front of a newline and behind it fall into segments by themselves. -/
theorem partition_append_newline {pieces more : List Piece} {cs rest : List Char}
    (h : Partition pieces cs) (hclosed : ∀ piece ∈ pieces.getLast?, ¬ piece.IsUnclosed)
    (hmore : Partition more rest) :
    Partition (pieces ++ newline :: more) (cs ++ '\n' :: rest) := by
  induction h with
  | nil => exact .cons (.blank Text.isBlank_newline) hmore
  | @cons piece pieces behind hpiece hpieces ih =>
    have hlater : ∀ last ∈ pieces.getLast?, ¬ last.IsUnclosed := by
      intro last hlast
      refine hclosed last ?_
      rw [List.getLast?_cons, Option.mem_def.mp hlast]
      rfl
    rw [List.cons_append, List.append_assoc]
    refine .cons (hpiece.before_blank Text.isBlank_newline ?_ fun _ => rfl) (ih hlater)
    -- With nothing behind it, the piece is the last one.
    rintro rfl
    obtain rfl : pieces = [] := by rw [partition_iff_split.mp hpieces, split]
    exact hclosed piece rfl

/-- **The pieces of a text are those of its parts in front of a newline and behind it.** -/
theorem split_append_newline {source : String} (h : ¬ EndsUnclosed source) (rest : List Char) :
    split (source.toList ++ '\n' :: rest) = split source.toList ++ newline :: split rest := by
  refine (partition_iff_split.mp ?_).symm
  refine partition_append_newline (partition_split _) (fun piece hlast hopen => ?_)
    (partition_split _)
  exact h ⟨piece, hlast, hopen⟩

end Piece

/-! ## Sources -/

namespace Lexed
variable {a b : String}

theorem pieces_append_newline (h : ¬ EndsUnclosed a) :
    pieces (a ++ "\n" ++ b) =
      pieces a ++ ⟨Place.first.pastAll a.toList, Piece.newline⟩ ::
        (pieces b).map (·.moved (a.length + 1) (1 + a.toList.count '\n')) := by
  have htext : (a ++ "\n" ++ b).toList = a.toList ++ '\n' :: b.toList := by simp
  have hplace : (Place.first.pastAll a.toList).pastAll Piece.newline.source =
      Place.first.moved (a.length + 1) (1 + a.toList.count '\n') := by
    rw [← Place.pastAll_append]
    exact Place.pastAll_newline a.toList
  rw [pieces, htext, Piece.split_append_newline h, Piece.placed_append, Piece.flatMap_split,
    Piece.placed, hplace, Piece.placed_moved, pieces, pieces]

/-- **A source is read line by line**: behind a newline in front of which no string or comment is
open, the tokens and the diagnostics are those of the rest by itself, as many characters and lines
further down as there are in front of it; and in front of the newline they are as if the source
ended there. -/
theorem ofSource_append_newline (h : ¬ EndsUnclosed a) :
    let offset := a.length + 1
    let lines := 1 + a.toList.count '\n'
    (ofSource (a ++ "\n" ++ b)).tokens =
        (ofSource a).lexemes ++ (ofSource b).tokens.map (·.moved offset lines) ∧
      (ofSource (a ++ "\n" ++ b)).diagnostics =
        (ofSource a).diagnostics ++ (ofSource b).diagnostics.map (·.moved lines) := by
  intro offset lines
  have hpieces := @pieces_append_newline a b h
  have hlexemes : (ofSource (a ++ "\n" ++ b)).lexemes =
      (ofSource a).lexemes ++ (ofSource b).lexemes.map (·.moved offset lines) := by
    rw [lexemes_ofSource, hpieces, List.filterMap_append, List.filterMap_cons_none rfl,
      List.filterMap_map, lexemes_ofSource, lexemes_ofSource, List.map_filterMap]
    congr 1
    exact List.filterMap_congr fun p _ => p.token?_moved offset lines
  have hmark : (ofSource (a ++ "\n" ++ b)).mark = (ofSource b).mark.moved offset lines := by
    have hfinish : (ofSource (a ++ "\n" ++ b)).finish =
        (ofSource b).finish.moved offset lines := by
      show Place.first.pastAll _ = (Place.first.pastAll b.toList).moved offset lines
      rw [String.toList_append, Place.pastAll_append, String.toList_append, ← Place.pastAll_moved]
      exact congrArg (·.pastAll b.toList) (Place.pastAll_newline a.toList)
    simp [mark, hfinish, Place.moved, Token.moved]
  constructor
  · rw [tokens, hlexemes, hmark, tokens, List.map_append, List.append_assoc, List.map_singleton]
  · rw [diagnostics_ofSource, hpieces, List.filterMap_append, List.filterMap_cons_none rfl,
      List.filterMap_map, diagnostics_ofSource, diagnostics_ofSource, List.map_filterMap]
    congr 1
    exact List.filterMap_congr fun p _ => p.diagnostic?_moved offset lines

/-- Without the newline the two strings would be one. -/
theorem ofSource_append_newline_strings :
    ¬ EndsUnclosed "\x7b ' \x7d\nx := 'it''s'" ∧
      (ofSource ("\x7b ' \x7d\nx := 'it''s'" ++ "\n" ++ "'' $ y")).tokens =
        (ofSource "\x7b ' \x7d\nx := 'it''s'").lexemes ++
          (ofSource "'' $ y").tokens.map (·.moved 19 2) ∧
      (ofSource ("\x7b ' \x7d\nx := 'it''s'" ++ "\n" ++ "'' $ y")).diagnostics =
        (ofSource "\x7b ' \x7d\nx := 'it''s'").diagnostics ++
          (ofSource "'' $ y").diagnostics.map (·.moved 2) := by
  have hclosed : ¬ EndsUnclosed "\x7b ' \x7d\nx := 'it''s'" := by
    rintro ⟨piece, hlast, hopen⟩
    have hpiece : (Piece.split "\x7b ' \x7d\nx := 'it''s'".toList).getLast? =
        some ⟨.lexeme .stringLiteral "it's", "'it''s'".toList⟩ := by
      decide +kernel
    obtain rfl := Option.some.inj (hpiece.symm.trans hlast)
    generalize hstring : (⟨_, _⟩ : Piece) = piece at hopen
    cases hopen with
    | comment => cases congrArg Piece.kind hstring
    | @string delimiter text =>
      have htext : "it's".toList = text := by
        have hkind := congrArg Piece.kind hstring
        injection hkind with _ heq
        rw [heq, String.toList_ofList]
      subst htext
      have hsource := congrArg Piece.source hstring
      obtain ⟨rfl, hdoubled⟩ := List.cons.inj hsource
      exact absurd hdoubled (by decide)
  exact ⟨hclosed, ofSource_append_newline hclosed⟩

end Lexed
end PascalCheck
