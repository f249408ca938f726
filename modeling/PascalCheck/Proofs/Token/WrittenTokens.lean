import PascalCheck.Proofs.Token.Order
import PascalCheck.Proofs.Token.Separation
import PascalCheck.Proofs.Token.Spelling

/-! # Tokens written out

A token is written as its text, and a string between apostrophes, with those that it contains
doubled.  What is written of a token of a source is again a lexeme of that token
(`Token.isSegment_written`): reserved words are spelled in lower case, the acute accent as a
delimiter gives way to the apostrophe, and strings that lacked their closer get one.  A space behind
it keeps what follows apart from it, so that **the tokens of a source, written with spaces between
them, are read again** (`Lexed.ofSource_written`). -/
namespace PascalCheck

namespace Token

/-- The kind and the text of a token. -/
def reading (token : Token) : TokenKind × String :=
  (token.kind, token.text)

/-- The token as it can be written in a source. -/
def written (token : Token) : String :=
  if token.kind = .stringLiteral then
    String.ofList ('\'' :: doubled '\'' token.text.toList ++ ['\''])
  else token.text

/-- The tokens of the list, each with a space in front of the next one. -/
def writtenAll (tokens : List Token) : String :=
  " ".intercalate (tokens.map written)

end Token

/-! ## The tokens of a source can be written -/

namespace Keyword

theorem isWord_text (word : Keyword) : IsWord word.text.toList := by
  have hword : word.text.toList.head?.any Piece.beginsWord = Bool.true ∧
      word.text.toList.all Piece.continuesWord = Bool.true := by
    cases word <;> decide
  obtain ⟨hhead, hall⟩ := hword
  refine ⟨?_, List.all_eq_true.mp hall⟩
  cases htext : word.text.toList with
  | nil => simp [htext] at hhead
  | cons c rest => exact ⟨c, rest, rfl, by simpa [htext] using hhead⟩

theorem lower_text (word : Keyword) : Text.lower word.text = word.text := by
  cases word <;> decide

end Keyword

namespace Spells
variable {kind : TokenKind} {text : String} {cs : List Char}

/-- What characters spell is also spelled by the text of the token. -/
theorem respell (h : Spells kind text cs) : Spells kind text text.toList := by
  cases h with
  | @reserved word cs _ hw =>
    rw [← hw]
    have hspells : Spells (.keyword word) (Text.lower (String.ofList word.text.toList))
        word.text.toList := by
      refine .reserved word.isWord_text ?_
      rw [String.ofList_toList, word.lower_text]
    rwa [String.ofList_toList, word.lower_text] at hspells
  | name hword hno =>
    rw [String.toList_ofList]
    exact .name hword hno
  | integer hdigits =>
    rw [String.toList_ofList]
    exact .integer hdigits
  | real hwhole hfraction =>
    rw [String.toList_ofList]
    exact .real hwhole hfraction
  | mark hmark =>
    rw [String.toList_ofList]
    exact .mark hmark

/-- A lexeme by itself is a segment. -/
theorem isSegment (h : Spells kind text cs) : IsSegment (.lexeme kind text) cs [] := by
  cases cs with
  | nil => exact absurd rfl h.ne_nil
  | cons c rest =>
    have hfirst := Piece.isSegment_first c rest
    rwa [Piece.first_of_spells h] at hfirst

theorem not_isUnclosed (h : Spells kind text cs) :
    ¬ Piece.IsUnclosed ⟨.lexeme kind text, cs⟩ := by
  intro hopen
  cases hopen
  exact h.ne_stringLiteral rfl

end Spells

namespace Piece

/-- What can be written as a token: a string, or what its own text spells. -/
def IsWritable (kind : TokenKind) (text : String) : Prop :=
  kind = .stringLiteral ∨ Spells kind text text.toList

/-- What is read as a token can be written as one. -/
theorem isWritable_of_isSegment {kind : TokenKind} {text : String} {cs rest : List Char}
    (h : IsSegment (.lexeme kind text) cs rest) : IsWritable kind text := by
  cases h with
  | string => exact .inl rfl
  | lexeme hspells => exact .inr hspells.respell

end Piece

namespace Token

def IsWritable (token : Token) : Prop :=
  Piece.IsWritable token.kind token.text

/-- The piece that is written for a token. -/
def writtenPiece (token : Token) : Piece :=
  ⟨.lexeme token.kind token.text, token.written.toList⟩

/-- **What is written of a token is a lexeme of it**, at the end of a text or in front of a
space. -/
theorem isSegment_written {token : Token} (h : token.IsWritable) {rest : List Char}
    (hrest : rest = [] ∨ ∃ more, rest = ' ' :: more) :
    IsSegment token.writtenPiece.kind token.writtenPiece.source rest := by
  obtain ⟨kind, text, start, line, column⟩ := token
  unfold writtenPiece written
  rcases h with hstring | hspells
  · dsimp only at hstring ⊢
    subst hstring
    have hend : rest.head? ≠ some '\'' := by
      rcases hrest with rfl | ⟨more, rfl⟩
      · simp
      · simp
    have hsegment := IsSegment.string (@IsString.closed '\'' text.toList rest rfl hend)
    simpa using hsegment
  · dsimp only at hspells ⊢
    rw [if_neg hspells.ne_stringLiteral]
    rcases hrest with rfl | ⟨more, rfl⟩
    · exact hspells.isSegment
    · refine hspells.isSegment.before_blank (by decide) (fun _ => hspells.not_isUnclosed) ?_
      exact PieceKind.noConfusion

end Token

/-! ## Spaces between tokens -/

namespace Piece

/-- The piece that a space is. -/
def space : Piece := ⟨.blank, [' ']⟩

/-- The kind and the text of the token that the piece is a lexeme of. -/
def reading? (piece : Piece) : Option (TokenKind × String) :=
  match piece.kind with
  | .lexeme kind text => some (kind, text)
  | _ => none

/-- What is written for the tokens: their lexemes, and a space between any two of them. -/
def spaced (tokens : List Token) : List Piece :=
  (tokens.map Token.writtenPiece).intersperse space

theorem spaced_cons_cons (token next : Token) (rest : List Token) :
    spaced (token :: next :: rest) = token.writtenPiece :: space :: spaced (next :: rest) := rfl

/-- The lexemes and the spaces are the segments of the text that is written. -/
theorem partition_spaced {tokens : List Token} (h : ∀ token ∈ tokens, token.IsWritable) :
    Partition (spaced tokens) (Token.writtenAll tokens).toList := by
  rw [Token.writtenAll, String.toList_intercalate]
  induction tokens with
  | nil => exact .nil
  | cons token rest ih =>
    have htoken := h token List.mem_cons_self
    cases rest with
    | nil =>
      rw [List.map_singleton, List.map_singleton, List.intercalate_singleton,
        ← List.append_nil token.written.toList]
      exact .cons (Token.isSegment_written htoken (.inl rfl)) .nil
    | cons next rest =>
      have hrest := ih fun other hmem => h other (List.mem_cons_of_mem _ hmem)
      rw [List.map_cons, List.map_cons, List.map_cons, List.map_cons, List.intercalate_cons_cons,
        List.append_assoc]
      refine .cons (Token.isSegment_written htoken (.inr ⟨_, rfl⟩)) ?_
      exact .cons (.blank (by decide)) hrest

theorem reading?_spaced (tokens : List Token) :
    (spaced tokens).filterMap reading? = tokens.map Token.reading := by
  induction tokens with
  | nil => rfl
  | cons token rest ih =>
    cases rest with
    | nil => rfl
    | cons next rest =>
      have hnext : ((space :: spaced (next :: rest)).filterMap reading?) =
          (next :: rest).map Token.reading := ih
      exact congrArg (token.reading :: ·) hnext

/-- The tokens that are read from pieces are those of their lexemes. -/
theorem reading_placed (place : Place) (pieces : List Piece) :
    ((placed place pieces).filterMap PlacedPiece.token?).map Token.reading =
      pieces.filterMap reading? := by
  induction pieces generalizing place with
  | nil => rfl
  | cons piece rest ih =>
    obtain ⟨kind, source⟩ := piece
    cases kind with
    | lexeme kind text =>
      exact congrArg ((kind, text) :: ·) (ih _)
    | blank | comment | unrecognized c =>
      exact ih _

theorem diagnostic?_spaced (place : Place) (tokens : List Token) :
    (placed place (spaced tokens)).filterMap PlacedPiece.diagnostic? = [] := by
  induction tokens generalizing place with
  | nil => rfl
  | cons token rest ih =>
    cases rest with
    | nil => rfl
    | cons next rest =>
      rw [spaced_cons_cons, placed, List.filterMap_cons_none rfl, placed,
        List.filterMap_cons_none rfl, ih]

end Piece

/-! ## Sources -/

namespace Lexed

theorem isWritable_of_mem {source : String} {token : Token}
    (h : token ∈ (ofSource source).lexemes) : token.IsWritable := by
  obtain ⟨p, hp, htoken⟩ := List.mem_filterMap.mp h
  obtain ⟨rest, hsegment⟩ :=
    Piece.isSegment_of_mem_split (Piece.piece_mem_of_placed hp)
  unfold PlacedPiece.token? at htoken
  split at htoken
  next kind text hkind =>
    cases htoken
    rw [hkind] at hsegment
    exact Piece.isWritable_of_isSegment hsegment
  next => cases htoken

/-- **The tokens of a source, written with spaces between them, are read again**: the same kinds and
texts, and the end mark behind them; and nothing is reported. -/
theorem ofSource_written (source : String) :
    let written := ofSource (Token.writtenAll (ofSource source).lexemes)
    written.tokens.map Token.reading =
        (ofSource source).lexemes.map Token.reading ++ [(.endOfInput, "")] ∧
      written.diagnostics = [] := by
  have hsplit : Piece.split (Token.writtenAll (ofSource source).lexemes).toList =
      Piece.spaced (ofSource source).lexemes :=
    (Piece.partition_iff_split.mp (Piece.partition_spaced fun _ hmem =>
      isWritable_of_mem hmem)).symm
  intro written
  constructor
  · rw [tokens, List.map_append, lexemes_ofSource, pieces, hsplit, Piece.reading_placed,
      Piece.reading?_spaced]
    rfl
  · rw [diagnostics_ofSource, pieces, hsplit, Piece.diagnostic?_spaced]

end Lexed
end PascalCheck
