import PascalCheck.Token.Lexing

/-! # How a source text is written

The rules by which a source text falls into segments, apart from the functions that cut it.  A
segment is a white space character, a comment, the lexeme of a token, or a character with which none
of these begins; what a segment is may depend on what follows it, since comments and strings end at
the first closer and every other lexeme is the longest one that begins where it does.

`Partition` puts segments together: it relates a list of pieces to the text that they make up.
`Piece.sites` tells where each of them stands, by counting the characters before it. -/
namespace PascalCheck

/-! ## Comments -/

/-- The marks between which a comment stands. -/
structure CommentMarks where
  opener : List Char
  closer : List Char
  deriving DecidableEq

namespace CommentMarks

/-- The comments that have a closer. -/
def all : List CommentMarks :=
  [⟨['\x7b'], ['\x7d']⟩, ⟨['(', '*'], ['*', ')']⟩, ⟨['/', '*'], ['*', '/']⟩]

end CommentMarks

/-- The mark of a comment that runs to the end of its line. -/
def lineOpener : List Char := ['/', '/']

/-- A comment begins here. -/
def OpensComment (cs : List Char) : Prop :=
  lineOpener <+: cs ∨ ∃ marks ∈ CommentMarks.all, marks.opener <+: cs

/-- The characters are a comment in front of `rest`: up to the first closer after its opener, or to
the end of the text where there is none; or up to the end of the line, which is not part of it. -/
inductive IsComment : List Char → List Char → Prop where
  | closed {marks : CommentMarks} {body rest : List Char} (h : marks ∈ CommentMarks.all)
      (hfirst : ∀ before after, body ++ marks.closer ++ rest = before ++ marks.closer ++ after →
        body.length ≤ before.length) :
      IsComment (marks.opener ++ body ++ marks.closer) rest
  | unclosed {marks : CommentMarks} {body : List Char} (h : marks ∈ CommentMarks.all)
      (hno : ∀ before after, body ≠ before ++ marks.closer ++ after) :
      IsComment (marks.opener ++ body) []
  | line {body rest : List Char} (hbody : '\n' ∉ body) (hend : rest = [] ∨ rest.head? = some '\n') :
      IsComment (lineOpener ++ body) rest

/-! ## Strings -/

/-- The text with every occurrence of a delimiter written twice. -/
def doubled (delimiter : Char) (text : List Char) : List Char :=
  text.flatMap fun c => if c = delimiter then [c, c] else [c]

/-- The characters are a string that says `text`, in front of `rest`: its delimiter, the text with
the delimiter doubled, and the delimiter again, where no further one follows; or, at the end of the
text, all of it. -/
inductive IsString (delimiter : Char) (text : List Char) : List Char → List Char → Prop where
  | closed {rest : List Char} (h : Piece.opensString delimiter = true)
      (hend : rest.head? ≠ some delimiter) :
      IsString delimiter text (delimiter :: doubled delimiter text ++ [delimiter]) rest
  | unclosed (h : Piece.opensString delimiter = true) :
      IsString delimiter text (delimiter :: doubled delimiter text) []

/-! ## Words, numbers and operators -/

/-- A letter or underscore, and then letters, underscores and digits. -/
def IsWord (cs : List Char) : Prop :=
  (∃ c rest, cs = c :: rest ∧ Piece.beginsWord c = true) ∧ ∀ c ∈ cs, Piece.continuesWord c = true

/-- One digit or more. -/
def IsDigits (cs : List Char) : Prop :=
  cs ≠ [] ∧ ∀ c ∈ cs, Piece.isDigit c = true

/-- The operators and delimiters: their spellings, and the kinds of their tokens. -/
def operatorMarks : List (List Char × TokenKind) :=
  [([':', '='], .assign), (['.', '.'], .dotDot), (['<', '='], .relation), (['<', '>'], .relation),
   (['>', '='], .relation), (['<'], .relation), (['>'], .relation), (['='], .relation),
   ([':'], .colon), (['.'], .dot), ([';'], .semicolon), ([','], .comma), (['('], .leftParen),
   ([')'], .rightParen), (['['], .leftBracket), ([']'], .rightBracket), (['+'], .plus),
   (['-'], .minus), (['*'], .star), (['/'], .slash)]

/-- The characters spell a token that is no string: its kind and its text, which is in lower case if
the word is reserved, and else what is written. -/
inductive Spells : TokenKind → String → List Char → Prop where
  | reserved {word : Keyword} {cs : List Char} (h : IsWord cs)
      (hw : word.text = Text.lower (String.ofList cs)) :
      Spells (.keyword word) (Text.lower (String.ofList cs)) cs
  | name {cs : List Char} (h : IsWord cs)
      (hno : ∀ word : Keyword, word.text ≠ Text.lower (String.ofList cs)) :
      Spells .identifier (String.ofList cs) cs
  | integer {cs : List Char} (h : IsDigits cs) : Spells .integerLiteral (String.ofList cs) cs
  | real {whole fraction : List Char} (hw : IsDigits whole) (hf : IsDigits fraction) :
      Spells .realLiteral (String.ofList (whole ++ '.' :: fraction)) (whole ++ '.' :: fraction)
  | mark {kind : TokenKind} {cs : List Char} (h : (cs, kind) ∈ operatorMarks) :
      Spells kind (String.ofList cs) cs

/-- No lexeme of a word, number or operator in front of the text is longer. -/
def IsLongest (cs text : List Char) : Prop :=
  ∀ kind' text' cs', Spells kind' text' cs' → cs' <+: text → cs'.length ≤ cs.length

/-! ## Segments -/

/-- The characters are a segment of the kind, in front of `rest`. -/
inductive IsSegment : PieceKind → List Char → List Char → Prop where
  | blank {c : Char} {rest : List Char} (h : Text.isBlank c = true) : IsSegment .blank [c] rest
  | comment {cs rest : List Char} (h : IsComment cs rest) : IsSegment .comment cs rest
  | string {delimiter : Char} {text cs rest : List Char} (h : IsString delimiter text cs rest) :
      IsSegment (.lexeme .stringLiteral (String.ofList text)) cs rest
  | lexeme {kind : TokenKind} {text : String} {cs rest : List Char} (h : Spells kind text cs)
      (hlongest : IsLongest cs (cs ++ rest)) (hcomment : ¬ OpensComment (cs ++ rest)) :
      IsSegment (.lexeme kind text) cs rest
  | unrecognized {c : Char} {rest : List Char} (hblank : Text.isBlank c = false)
      (hcomment : ¬ OpensComment (c :: rest)) (hstring : Piece.opensString c = false)
      (hlexeme : ∀ kind text cs, Spells kind text cs → ¬ cs <+: c :: rest) :
      IsSegment (.unrecognized c) [c] rest

/-- The pieces make up the text, and each of them is a segment in front of those that follow. -/
inductive Partition : List Piece → List Char → Prop where
  | nil : Partition [] []
  | cons {piece : Piece} {pieces : List Piece} {rest : List Char}
      (h : IsSegment piece.kind piece.source rest) (hs : Partition pieces rest) :
      Partition (piece :: pieces) (piece.source ++ rest)

/-! ## Places -/

/-- The place behind a text: one line more than it has newlines, and one column more than it has
characters since the last of them. -/
def Place.behind (before : List Char) : Place where
  offset := before.length
  line := 1 + before.count '\n'
  column := 1 + (before.reverse.takeWhile (· ≠ '\n')).length

namespace Piece

/-- The pieces, each at the place behind the text in front of it, when `before` is in front of the
first. -/
def sites (before : List Char) : List Piece → List PlacedPiece
  | [] => []
  | piece :: rest => ⟨.behind before, piece⟩ :: sites (before ++ piece.source) rest

end Piece

end PascalCheck
