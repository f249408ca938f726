import PascalCheck.Diagnostic.Basic
import PascalCheck.Token.Piece
import PascalCheck.Token.Place

/-! The tokens of a source text, and the characters that belong to none. -/
namespace PascalCheck

/-- A piece of source text and the place where it begins. -/
structure PlacedPiece where
  place : Place
  piece : Piece
  deriving DecidableEq

namespace Piece

/-- The pieces with their places, when the first begins at `place`. -/
def placed (place : Place) : List Piece → List PlacedPiece
  | [] => []
  | piece :: rest => ⟨place, piece⟩ :: placed (place.pastAll piece.source) rest

end Piece

namespace PlacedPiece

/-- The token that a piece writes. -/
def token? (p : PlacedPiece) : Option Token :=
  match p.piece.kind with
  | .lexeme kind text => some ⟨kind, text, p.place.offset, p.place.line, p.place.column⟩
  | _ => none

/-- The diagnostic of a piece that belongs to no token. -/
def diagnostic? (p : PlacedPiece) : Option Diagnostic :=
  match p.piece.kind with
  | .unrecognized c =>
    some ⟨.error, .lexical, s!"Unrecognized character: '{c}'", p.place.line, p.place.column, ""⟩
  | _ => none

end PlacedPiece

/-- What reading a source text gives: its tokens without the end mark, the place where it ends, and
the diagnostics of the characters that were passed over. -/
structure Lexed where
  lexemes : List Token
  finish : Place
  diagnostics : List Diagnostic

namespace Lexed

/-- Reads a source text. -/
def ofSource (source : String) : Lexed :=
  let pieces := Piece.placed .first (Piece.split source.toList)
  ⟨pieces.filterMap PlacedPiece.token?, Place.first.pastAll source.toList,
    pieces.filterMap PlacedPiece.diagnostic?⟩

/-- The end mark. -/
def mark (lexed : Lexed) : Token :=
  ⟨.endOfInput, "", lexed.finish.offset, lexed.finish.line, lexed.finish.column⟩

/-- All tokens, the end mark last. -/
def tokens (lexed : Lexed) : List Token :=
  lexed.lexemes ++ [lexed.mark]

end Lexed
end PascalCheck
