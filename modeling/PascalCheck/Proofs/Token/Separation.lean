import PascalCheck.Proofs.Token.Partition

/-! # What stands behind white space

A segment is what it is because of what follows it, but it looks no further than the next white
space: no lexeme and no mark of a comment has any in it.  So a segment stays the segment it was when
white space and any other text are put behind what follows it (`IsSegment.before_blank`), unless it
runs to the end of the text for want of a closer (`Piece.IsUnclosed`), or is a comment that only the
end of its line closes. -/
namespace PascalCheck

/-- The piece is a string or a comment that has no closer. -/
inductive Piece.IsUnclosed : Piece → Prop where
  | comment {marks : CommentMarks} {body : List Char} (h : marks ∈ CommentMarks.all)
      (hno : ∀ before after, body ≠ before ++ marks.closer ++ after) :
      IsUnclosed ⟨.comment, marks.opener ++ body⟩
  | string {delimiter : Char} {text : List Char} (h : Piece.opensString delimiter = true) :
      IsUnclosed ⟨.lexeme .stringLiteral (String.ofList text), delimiter :: doubled delimiter text⟩

/-! ## White space in front of more text -/

/-- What begins a text and lacks one of its characters ends in front of it. -/
theorem prefix_of_not_mem {cs front more : List Char} {c : Char} (h : cs <+: front ++ c :: more)
    (hc : c ∉ cs) : cs <+: front := by
  by_cases hle : cs.length ≤ front.length
  · exact List.prefix_of_prefix_length_le h (List.prefix_append _ _) hle
  · -- It would reach over the character.
    have hover : front ++ [c] <+: cs := by
      refine List.prefix_of_prefix_length_le ⟨more, by simp⟩ h ?_
      rw [List.length_append, List.length_singleton]
      omega
    exact absurd (hover.subset (by simp)) hc

theorem CommentMarks.isBlank_of_mem_opener : ∀ marks ∈ CommentMarks.all, ∀ c ∈ marks.opener,
    Text.isBlank c = false := by
  decide

section
variable {cs rest more : List Char} {c : Char} (hc : Text.isBlank c = true)
include hc

/-- No mark of a comment reaches over white space. -/
theorem OpensComment.of_before_blank (h : OpensComment (cs ++ c :: more)) : OpensComment cs := by
  rcases h with hline | ⟨marks, hmarks, hopener⟩
  · refine .inl (prefix_of_not_mem hline fun hmem => ?_)
    have hmark : ∀ d ∈ lineOpener, Text.isBlank d = false := by decide
    rw [hmark c hmem] at hc
    cases hc
  · refine .inr ⟨marks, hmarks, prefix_of_not_mem hopener fun hmem => ?_⟩
    rw [CommentMarks.isBlank_of_mem_opener marks hmarks c hmem] at hc
    cases hc

theorem Spells.prefix_before_blank {kind : TokenKind} {text : String} (h : Spells kind text cs)
    (hp : cs <+: rest ++ c :: more) : cs <+: rest :=
  prefix_of_not_mem hp (h.not_mem_of_isBlank hc)

/-- What is longest in a text stays so in front of white space. -/
theorem IsLongest.before_blank {text : List Char} (h : IsLongest cs text) :
    IsLongest cs (text ++ c :: more) :=
  fun kind text' cs' hs hp => h kind text' cs' hs (hs.prefix_before_blank hc hp)

end

/-! ## Segments -/

section
variable {kind : PieceKind} {cs rest more : List Char} {c : Char}

/-- A comment stays one before a new line, also if only its line closed it. -/
theorem IsComment.before_newline (h : IsComment cs rest)
    (hclosed : rest = [] → ¬ Piece.IsUnclosed ⟨.comment, cs⟩) :
    IsComment cs (rest ++ '\n' :: more) := by
  cases h with
  | closed hmarks hfirst => exact .closed hmarks (CommentMarks.first_of_first hfirst)
  | unclosed hmarks hno => exact absurd (.comment hmarks hno) (hclosed rfl)
  | line hbody hend =>
    refine .line hbody (.inr ?_)
    rcases hend with rfl | hnewline
    · rfl
    · rw [List.head?_append, hnewline]
      rfl

/-- A string stays one, unless it is cut off by the end of the text. -/
theorem IsString.before_blank {delimiter : Char} {text : List Char}
    (h : IsString delimiter text cs rest) (hc : Text.isBlank c = true)
    (hclosed : rest = [] → ¬ Piece.IsUnclosed ⟨.lexeme .stringLiteral (String.ofList text), cs⟩) :
    IsString delimiter text cs (rest ++ c :: more) := by
  cases h with
  | closed hopens hend =>
    refine .closed hopens ?_
    cases rest with
    | nil =>
      intro heq
      obtain rfl := Option.some.inj heq
      rw [isBlank_of_opensString hopens] at hc
      cases hc
    | cons d rest => exact hend
  | unclosed hopens => exact absurd (.string hopens) (hclosed rfl)

/-- **White space and more text behind what follows a segment leave it a segment**, if it has its
closer, and if a comment, for which the white space is the end of a line. -/
theorem IsSegment.before_blank (h : IsSegment kind cs rest) (hc : Text.isBlank c = true)
    (hclosed : rest = [] → ¬ Piece.IsUnclosed ⟨kind, cs⟩) (hline : kind = .comment → c = '\n') :
    IsSegment kind cs (rest ++ c :: more) := by
  cases h with
  | blank hblank => exact .blank hblank
  | comment hcomment =>
    obtain rfl := hline rfl
    exact .comment (hcomment.before_newline hclosed)
  | string hstring => exact .string (hstring.before_blank hc hclosed)
  | lexeme hspells hlongest hcomment =>
    refine .lexeme hspells ?_ fun hopens => hcomment ?_
    · rw [← List.append_assoc]
      exact hlongest.before_blank hc
    · rw [← List.append_assoc] at hopens
      exact hopens.of_before_blank hc
  | @unrecognized d _ hblank hcomment hstring hlexeme =>
    refine .unrecognized hblank (fun hopens => hcomment ?_) hstring fun token text cs' hs hp => ?_
    · rw [← List.cons_append] at hopens
      exact hopens.of_before_blank hc
    · rw [← List.cons_append] at hp
      exact hlexeme token text cs' hs (hs.prefix_before_blank hc hp)

end
end PascalCheck
