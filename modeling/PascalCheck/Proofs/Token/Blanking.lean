import Mathlib.Data.List.Forall2
import PascalCheck.Proofs.Token.Order

/-! # Spaces in place of unrecognized characters

A character that begins no token is reported and passed over, and a space is passed over without a
report.  No lexeme, no mark of a comment and no delimiter of a string contains a space, so each
segment of a text stays the segment it was when characters that follow it give way to spaces
(`IsSegment.of_blanks`): no segment looks at such a character and would have it otherwise.  The text
with spaces falls into the same segments, with white space where there were unrecognized characters,
and so the same tokens are read from it (`Lexed.ofSource_blankedSource`). -/
namespace PascalCheck

/-! ## Texts with spaces -/

/-- The character `d` stands in place of `c`: it is the same, or a space in place of anything but a
newline. -/
def Blanks (c d : Char) : Prop :=
  d = c ∨ d = ' ' ∧ c ≠ '\n'

namespace Blanks
variable {text blanked : List Char}

theorem of_eq (c : Char) : Blanks c c := .inl rfl

theorem forall₂_self (text : List Char) : List.Forall₂ Blanks text text :=
  List.forall₂_same.mpr fun c _ => of_eq c

theorem past {c d : Char} (h : Blanks c d) (place : Place) : place.past d = place.past c := by
  rcases h with rfl | ⟨rfl, hc⟩
  · rfl
  · simp [Place.past, hc]

/-- Spaces in place of other characters of a line move nothing. -/
theorem pastAll (h : List.Forall₂ Blanks text blanked) (place : Place) :
    place.pastAll blanked = place.pastAll text := by
  induction h generalizing place with
  | nil => rfl
  | cons hc _ ih => rw [Place.pastAll_cons, Place.pastAll_cons, hc.past, ih]

/-- What begins the text with spaces, and has none, begins the text. -/
theorem prefix_of_prefix (h : List.Forall₂ Blanks text blanked) {cs : List Char}
    (hspace : ' ' ∉ cs) (hpre : cs <+: blanked) : cs <+: text := by
  induction h generalizing cs with
  | nil => exact hpre
  | @cons c d rest blankedRest hc _ ih =>
    cases cs with
    | nil => exact List.nil_prefix
    | cons e more =>
      obtain ⟨rfl, hmore⟩ := List.cons_prefix_cons.mp hpre
      rw [List.mem_cons, not_or] at hspace
      rcases hc with rfl | ⟨rfl, -⟩
      · exact List.cons_prefix_cons.mpr ⟨rfl, ih hspace.2 hmore⟩
      · exact absurd rfl hspace.1

theorem eq_nil (h : List.Forall₂ Blanks [] blanked) : blanked = [] :=
  List.forall₂_nil_left_iff.mp h

theorem head?_ne {c : Char} (h : List.Forall₂ Blanks text blanked) (hc : c ≠ ' ')
    (hhead : text.head? ≠ some c) : blanked.head? ≠ some c := by
  cases h with
  | nil => exact hhead
  | cons hd _ =>
    intro heq
    obtain rfl := Option.some.inj heq
    rcases hd with rfl | ⟨rfl, -⟩
    · exact hhead rfl
    · exact hc rfl

theorem head?_newline (h : List.Forall₂ Blanks text blanked) (hhead : text.head? = some '\n') :
    blanked.head? = some '\n' := by
  cases h with
  | nil => exact hhead
  | cons hd _ =>
    obtain rfl := Option.some.inj hhead
    rcases hd with rfl | ⟨-, hne⟩
    · rfl
    · exact absurd rfl hne

end Blanks

/-! ## Segments in front of spaces -/

section
variable {cs rest blankedRest : List Char} (hrest : List.Forall₂ Blanks rest blankedRest)
include hrest

theorem Blanks.append (cs : List Char) :
    List.Forall₂ Blanks (cs ++ rest) (cs ++ blankedRest) :=
  List.rel_append (Blanks.forall₂_self cs) hrest

theorem IsLongest.of_blanks (h : IsLongest cs (cs ++ rest)) : IsLongest cs (cs ++ blankedRest) := by
  intro kind text cs' hs hpre
  exact h kind text cs' hs
    (Blanks.prefix_of_prefix (Blanks.append hrest cs) (hs.not_mem_of_isBlank (by decide)) hpre)

theorem OpensComment.of_blanks (h : OpensComment (cs ++ blankedRest)) :
    OpensComment (cs ++ rest) := by
  have hopeners : ∀ marks ∈ CommentMarks.all, ' ' ∉ marks.opener := by decide
  have hall := Blanks.append hrest cs
  rcases h with hline | ⟨marks, hmarks, hopener⟩
  · exact .inl (Blanks.prefix_of_prefix hall (by decide) hline)
  · exact .inr ⟨marks, hmarks, Blanks.prefix_of_prefix hall (hopeners _ hmarks) hopener⟩

theorem IsComment.of_blanks (h : IsComment cs rest) : IsComment cs blankedRest := by
  cases h with
  | closed hmarks hfirst => exact .closed hmarks (CommentMarks.first_of_first hfirst)
  | unclosed hmarks hno =>
    rw [Blanks.eq_nil hrest]
    exact .unclosed hmarks hno
  | line hbody hend =>
    refine .line hbody ?_
    rcases hend with rfl | hnewline
    · exact .inl (Blanks.eq_nil hrest)
    · exact .inr (Blanks.head?_newline hrest hnewline)

theorem IsString.of_blanks {delimiter : Char} {text : List Char}
    (h : IsString delimiter text cs rest) : IsString delimiter text cs blankedRest := by
  cases h with
  | closed hopens hend =>
    have hspace : delimiter ≠ ' ' := by
      rintro rfl
      exact absurd hopens (by decide)
    exact .closed hopens (Blanks.head?_ne hrest hspace hend)
  | unclosed hopens =>
    rw [Blanks.eq_nil hrest]
    exact .unclosed hopens

end

/-! ## Pieces -/

namespace Piece

/-- The piece, or a space in its place if it is a character with which nothing begins. -/
def cleared (piece : Piece) : Piece :=
  match piece.kind with
  | .unrecognized _ => ⟨.blank, [' ']⟩
  | _ => piece

end Piece

/-- **A segment stays one when characters behind it give way to spaces**, and an unrecognized
character gives way to white space. -/
theorem IsSegment.of_blanks {piece : Piece} {rest blankedRest : List Char}
    (h : IsSegment piece.kind piece.source rest) (hrest : List.Forall₂ Blanks rest blankedRest) :
    IsSegment piece.cleared.kind piece.cleared.source blankedRest ∧
      List.Forall₂ Blanks piece.source piece.cleared.source := by
  obtain ⟨kind, source⟩ := piece
  cases h with
  | blank hblank => exact ⟨.blank hblank, Blanks.forall₂_self _⟩
  | comment hc => exact ⟨.comment (hc.of_blanks hrest), Blanks.forall₂_self _⟩
  | string hs => exact ⟨.string (hs.of_blanks hrest), Blanks.forall₂_self _⟩
  | lexeme hs hlongest hcomment =>
    refine ⟨.lexeme hs (hlongest.of_blanks hrest) fun hopens => ?_, Blanks.forall₂_self _⟩
    exact hcomment (hopens.of_blanks hrest)
  | unrecognized hblank =>
    refine ⟨.blank (by decide), .cons (.inr ⟨rfl, ?_⟩) .nil⟩
    rintro rfl
    exact absurd hblank (by decide)

namespace Piece

/-- The pieces with spaces are those of the text with spaces. -/
theorem partition_cleared {pieces : List Piece} {cs : List Char} (h : Partition pieces cs) :
    Partition (pieces.map cleared) (pieces.flatMap (·.cleared.source)) ∧
      List.Forall₂ Blanks cs (pieces.flatMap (·.cleared.source)) := by
  induction h with
  | nil => exact ⟨.nil, .nil⟩
  | cons hpiece _ ih =>
    obtain ⟨hsegment, hblanks⟩ := hpiece.of_blanks ih.2
    rw [List.flatMap_cons]
    exact ⟨.cons hsegment ih.1, List.rel_append hblanks ih.2⟩

end Piece

namespace PlacedPiece

/-- The piece at its place, with a space for what is unrecognized. -/
def cleared (p : PlacedPiece) : PlacedPiece :=
  ⟨p.place, p.piece.cleared⟩

theorem token?_cleared (p : PlacedPiece) : p.cleared.token? = p.token? := by
  obtain ⟨place, kind, source⟩ := p
  cases kind <;> rfl

theorem diagnostic?_cleared (p : PlacedPiece) : p.cleared.diagnostic? = none := by
  obtain ⟨place, kind, source⟩ := p
  cases kind <;> rfl

end PlacedPiece

namespace Piece

theorem placed_cleared (place : Place) {pieces : List Piece} {cs : List Char}
    (h : Partition pieces cs) :
    placed place (pieces.map cleared) = (placed place pieces).map PlacedPiece.cleared := by
  induction h generalizing place with
  | nil => rfl
  | @cons piece pieces rest hpiece _ ih =>
    have hsame := Blanks.pastAll (hpiece.of_blanks (Blanks.forall₂_self rest)).2 place
    rw [List.map_cons, placed, hsame, ih, placed, List.map_cons, PlacedPiece.cleared]

end Piece

/-! ## Reported characters -/

/-- The text from the place on, with a space for every character at whose line and column something
has been reported. -/
def blanked (reported : List Diagnostic) (place : Place) : List Char → List Char
  | [] => []
  | c :: rest =>
    (if place.spot ∈ reported.map Diagnostic.spot then ' ' else c) ::
      blanked reported (place.past c) rest

section
variable {reported : List Diagnostic}

theorem blanked_append (place : Place) (cs more : List Char) :
    blanked reported place (cs ++ more) =
      blanked reported place cs ++ blanked reported (place.pastAll cs) more := by
  induction cs generalizing place with
  | nil => rfl
  | cons c rest ih => simp only [List.cons_append, blanked, ih, Place.pastAll_cons]

/-- A text in which nothing is reported stays as it is. -/
theorem blanked_eq_self {place : Place} {cs : List Char}
    (h : ∀ d ∈ reported, place.spot ≤ d.spot → (place.pastAll cs).spot ≤ d.spot) :
    blanked reported place cs = cs := by
  induction cs generalizing place with
  | nil => rfl
  | cons c rest ih =>
    have hpast := Place.spot_lt_past place c
    have hclear : place.spot ∉ reported.map Diagnostic.spot := by
      intro hmem
      obtain ⟨d, hd, hspot⟩ := List.mem_map.mp hmem
      have hlater := h d hd hspot.ge
      have hend := Place.spot_lt_pastAll place (List.cons_ne_nil c rest)
      exact absurd (hend.trans_le hlater) (by rw [hspot]; exact lt_irrefl _)
    rw [blanked, if_neg hclear, ih fun d hd hle => h d hd (hpast.le.trans hle)]

/-- The reported characters are the pieces with which nothing begins. -/
theorem blanked_eq_flatMap_cleared {place : Place} {pieces : List Piece} {cs : List Char}
    (h : Partition pieces cs)
    (hnone : ∀ d ∈ reported, place.spot ≤ d.spot →
      d ∈ (Piece.placed place pieces).filterMap PlacedPiece.diagnostic?)
    (hall : ∀ d ∈ (Piece.placed place pieces).filterMap PlacedPiece.diagnostic?, d ∈ reported) :
    blanked reported place cs = pieces.flatMap (·.cleared.source) := by
  induction h generalizing place with
  | nil => rfl
  | @cons piece pieces rest hpiece hrest ih =>
    have hlater := Place.spot_lt_pastAll place (Piece.ne_nil_of_isSegment hpiece)
    have hne := Piece.source_ne_nil_of_partition hrest
    -- What is reported at the piece is reported of it, and all else is reported later.
    have hcases : ∀ d ∈ reported, place.spot ≤ d.spot →
        PlacedPiece.diagnostic? ⟨place, piece⟩ = some d ∨
          (place.pastAll piece.source).spot ≤ d.spot ∧
          d ∈ (Piece.placed (place.pastAll piece.source) pieces).filterMap
            PlacedPiece.diagnostic? := by
      intro d hd hle
      obtain ⟨p, hp, hpd⟩ := List.mem_filterMap.mp (hnone d hd hle)
      rcases List.mem_cons.mp hp with rfl | hp
      · exact .inl hpd
      · refine .inr ⟨?_, List.mem_filterMap.mpr ⟨p, hp, hpd⟩⟩
        rw [(PlacedPiece.spot_of_diagnostic? hpd).1]
        exact (Piece.spot_of_mem_placed hne hp).1
    have hmore : blanked reported (place.pastAll piece.source) rest =
        pieces.flatMap (·.cleared.source) := by
      refine ih (fun d hd hle => ?_) fun d hd => hall d ?_
      · rcases hcases d hd (hlater.le.trans hle) with hown | ⟨-, hmem⟩
        · rw [(PlacedPiece.spot_of_diagnostic? hown).1] at hle
          exact absurd hlater hle.not_gt
        · exact hmem
      · obtain ⟨p, hp, hpd⟩ := List.mem_filterMap.mp hd
        exact List.mem_filterMap.mpr ⟨p, List.mem_cons_of_mem _ hp, hpd⟩
    have hown : blanked reported place piece.source = piece.cleared.source := by
      cases hd : PlacedPiece.diagnostic? ⟨place, piece⟩ with
      | none =>
        have hsame : piece.cleared = piece := by
          obtain ⟨kind, source⟩ := piece
          cases kind with
          | unrecognized c => cases hd
          | _ => rfl
        rw [hsame]
        refine blanked_eq_self fun d hmem hle => ?_
        rcases hcases d hmem hle with hself | ⟨hafter, -⟩
        · rw [hd] at hself
          cases hself
        · exact hafter
      | some d =>
        have hmem : d ∈ reported :=
          hall d (List.mem_filterMap.mpr ⟨_, List.mem_cons_self, hd⟩)
        have hspot : place.spot ∈ reported.map Diagnostic.spot :=
          List.mem_map.mpr ⟨d, hmem, (PlacedPiece.spot_of_diagnostic? hd).1⟩
        obtain ⟨kind, source⟩ := piece
        cases hpiece with
        | unrecognized => exact congrArg ([·]) (if_pos hspot)
        | _ => cases hd
    rw [blanked_append, hown, hmore, List.flatMap_cons]

end

/-! ## Sources -/

namespace Lexed

/-- The source with a space for every character that is reported as unrecognized. -/
def blankedSource (source : String) : String :=
  String.ofList (blanked (ofSource source).diagnostics .first source.toList)

theorem toList_blankedSource (source : String) :
    (blankedSource source).toList =
      (Piece.split source.toList).flatMap (·.cleared.source) := by
  rw [blankedSource, String.toList_ofList]
  exact blanked_eq_flatMap_cleared (Piece.partition_split _) (fun d hd _ => hd) fun d hd => hd

/-- **The same tokens are read with spaces in place of the unrecognized characters, and nothing is
reported.** -/
theorem ofSource_blankedSource (source : String) :
    ofSource (blankedSource source) = { ofSource source with diagnostics := [] } := by
  obtain ⟨hpartition, hblanks⟩ := Piece.partition_cleared (Piece.partition_split source.toList)
  have hsplit : Piece.split (blankedSource source).toList =
      (Piece.split source.toList).map Piece.cleared := by
    rw [toList_blankedSource]
    exact (Piece.partition_iff_split.mp hpartition).symm
  have hpieces : pieces (blankedSource source) = (pieces source).map PlacedPiece.cleared := by
    rw [pieces, hsplit, Piece.placed_cleared _ (Piece.partition_split _), pieces]
  have hlexemes : (ofSource (blankedSource source)).lexemes = (ofSource source).lexemes := by
    rw [lexemes_ofSource, hpieces, List.filterMap_map, lexemes_ofSource]
    exact List.filterMap_congr fun p _ => p.token?_cleared
  have hdiagnostics : (ofSource (blankedSource source)).diagnostics = [] := by
    rw [diagnostics_ofSource, hpieces, List.filterMap_map]
    exact List.filterMap_eq_nil_iff.mpr fun p _ => p.diagnostic?_cleared
  have hfinish : (ofSource (blankedSource source)).finish = (ofSource source).finish := by
    show Place.first.pastAll _ = Place.first.pastAll _
    rw [toList_blankedSource]
    exact Blanks.pastAll hblanks .first
  calc ofSource (blankedSource source)
      = ⟨(ofSource (blankedSource source)).lexemes, (ofSource (blankedSource source)).finish,
          (ofSource (blankedSource source)).diagnostics⟩ := rfl
    _ = { ofSource source with diagnostics := [] } := by rw [hlexemes, hfinish, hdiagnostics]

end Lexed
end PascalCheck
