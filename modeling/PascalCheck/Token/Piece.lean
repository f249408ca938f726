import PascalCheck.Text.Blank
import PascalCheck.Text.Case
import PascalCheck.Token.Basic

/-! A source text cut into pieces: white space, comments, lexemes and characters that begin none of
these. The pieces of a text, put together again, are the text. -/
namespace PascalCheck

/-- What a piece of source text is. -/
inductive PieceKind where
  | blank
  | comment
  | lexeme (kind : TokenKind) (text : String)
  | unrecognized (c : Char)
  deriving DecidableEq

/-- A piece of source text and its characters. -/
structure Piece where
  kind : PieceKind
  source : List Char
  deriving DecidableEq

namespace Piece

/-- A digit of a number. -/
def isDigit (c : Char) : Bool :=
  '0' ≤ c && c ≤ '9'

/-- A letter or underscore, with which a word begins. -/
def beginsWord (c : Char) : Bool :=
  ('a' ≤ c && c ≤ 'z') || ('A' ≤ c && c ≤ 'Z') || c == '_'

/-- A character with which a word goes on. -/
def continuesWord (c : Char) : Bool :=
  beginsWord c || isDigit c

/-- The apostrophe opens a string, and so does the acute accent that word processors put in its
place. -/
def opensString (c : Char) : Bool :=
  c == '\'' || c == '´'

/-- The text up to and including the first closer, or all of it, and what follows. -/
def through (closer : List Char) : List Char → List Char × List Char
  | [] => ([], [])
  | c :: rest =>
    if closer.isPrefixOf (c :: rest) then
      ((c :: rest).take closer.length, (c :: rest).drop closer.length)
    else
      (c :: (through closer rest).1, (through closer rest).2)

theorem through_append (closer cs : List Char) :
    (through closer cs).1 ++ (through closer cs).2 = cs := by
  induction cs with
  | nil => rfl
  | cons c rest ih =>
    unfold through
    split
    · exact List.take_append_drop _ _
    · simp [ih]

/-- The comment that the text begins with, and what follows. -/
def comment? : List Char → Option (List Char × List Char)
  | '\x7b' :: rest =>
    let body := through ['\x7d'] rest
    some ('\x7b' :: body.1, body.2)
  | '(' :: '*' :: rest =>
    let body := through ['*', ')'] rest
    some ('(' :: '*' :: body.1, body.2)
  | '/' :: '/' :: rest =>
    some ('/' :: '/' :: rest.takeWhile (· != '\n'), rest.dropWhile (· != '\n'))
  | '/' :: '*' :: rest =>
    let body := through ['*', '/'] rest
    some ('/' :: '*' :: body.1, body.2)
  | _ => none

theorem comment?_append {cs : List Char} {cut : List Char × List Char}
    (h : comment? cs = some cut) : cut.1 ++ cut.2 = cs ∧ cut.1 ≠ [] := by
  unfold comment? at h
  split at h <;> simp_all <;> subst h <;> simp [through_append]

/-- A string after its opening delimiter: the characters up to and including the closing one, what
they stand for, and what follows. -/
structure StringBody where
  source : List Char
  meaning : List Char
  rest : List Char

/-- A string ends at the first delimiter that is not doubled, or with the text; a doubled delimiter
stands for one. -/
def stringBody (delimiter : Char) : List Char → StringBody
  | [] => ⟨[], [], []⟩
  | [c] => if c = delimiter then ⟨[c], [], []⟩ else ⟨[c], [c], []⟩
  | c :: d :: rest =>
    if c = delimiter then
      if d = delimiter then
        let more := stringBody delimiter rest
        ⟨c :: d :: more.source, c :: more.meaning, more.rest⟩
      else
        ⟨[c], [], d :: rest⟩
    else
      let more := stringBody delimiter (d :: rest)
      ⟨c :: more.source, c :: more.meaning, more.rest⟩

theorem stringBody_append (delimiter : Char) (cs : List Char) :
    (stringBody delimiter cs).source ++ (stringBody delimiter cs).rest = cs := by
  fun_induction stringBody delimiter cs <;> simp_all +zetaDelta

/-- A number: digits, and if a point and a digit follow, these and all further digits. -/
def number (cs : List Char) : Piece × List Char :=
  let whole := cs.takeWhile isDigit
  match cs.dropWhile isDigit with
  | '.' :: d :: rest =>
    if isDigit d then
      let source := whole ++ '.' :: (d :: rest).takeWhile isDigit
      (⟨.lexeme .realLiteral (String.ofList source), source⟩, (d :: rest).dropWhile isDigit)
    else
      (⟨.lexeme .integerLiteral (String.ofList whole), whole⟩, '.' :: d :: rest)
  | rest => (⟨.lexeme .integerLiteral (String.ofList whole), whole⟩, rest)

/-- A word: reserved if it is so spelled in any letter case, else a name as it is spelled. -/
def word (cs : List Char) : Piece × List Char :=
  let source := cs.takeWhile continuesWord
  let spelling := String.ofList source
  let kind := match Keyword.ofText? (Text.lower spelling) with
    | some reserved => .lexeme (.keyword reserved) reserved.text
    | none => .lexeme .identifier spelling
  (⟨kind, source⟩, cs.dropWhile continuesWord)

/-- The operator or delimiter that two characters write. -/
def doubleMark? : Char → Char → Option TokenKind
  | ':', '=' => some .assign
  | '.', '.' => some .dotDot
  | '<', '=' | '<', '>' | '>', '=' => some .relation
  | _, _ => none

/-- The operator or delimiter that one character writes. -/
def singleMark? : Char → Option TokenKind
  | '<' | '>' | '=' => some .relation
  | ':' => some .colon
  | '.' => some .dot
  | ';' => some .semicolon
  | ',' => some .comma
  | '(' => some .leftParen
  | ')' => some .rightParen
  | '[' => some .leftBracket
  | ']' => some .rightBracket
  | '+' => some .plus
  | '-' => some .minus
  | '*' => some .star
  | '/' => some .slash
  | _ => none

/-- The piece of one character that is at most an operator or delimiter. -/
def single (c : Char) : Piece :=
  match singleMark? c with
  | some kind => ⟨.lexeme kind (String.singleton c), [c]⟩
  | none => ⟨.unrecognized c, [c]⟩

/-- An operator or delimiter, of two characters if they write one, or a character that begins
nothing. -/
def mark (c : Char) : List Char → Piece × List Char
  | [] => (single c, [])
  | d :: rest =>
    match doubleMark? c d with
    | some kind => (⟨.lexeme kind (String.ofList [c, d]), [c, d]⟩, rest)
    | none => (single c, d :: rest)

/-- The first piece of a text that is not empty, and what follows. -/
def first (c : Char) (rest : List Char) : Piece × List Char :=
  if Text.isBlank c then (⟨.blank, [c]⟩, rest)
  else match comment? (c :: rest) with
    | some cut => (⟨.comment, cut.1⟩, cut.2)
    | none =>
      if opensString c then
        let body := stringBody c rest
        (⟨.lexeme .stringLiteral (String.ofList body.meaning), c :: body.source⟩, body.rest)
      else if isDigit c then number (c :: rest)
      else if beginsWord c then word (c :: rest)
      else mark c rest

theorem number_append (cs : List Char) : (number cs).1.source ++ (number cs).2 = cs := by
  have h := List.takeWhile_append_dropWhile (p := isDigit) (l := cs)
  unfold number
  split
  next d rest hd =>
    split
    · simp only [List.append_assoc, List.cons_append, List.takeWhile_append_dropWhile]
      rw [← hd, h]
    · simp only [← hd, h]
  · exact h

theorem word_append (cs : List Char) : (word cs).1.source ++ (word cs).2 = cs := by
  simp [word]

theorem single_source (c : Char) : (single c).source = [c] := by
  unfold single
  split <;> rfl

theorem mark_append (c : Char) (rest : List Char) :
    (mark c rest).1.source ++ (mark c rest).2 = c :: rest := by
  unfold mark
  split
  · simp [single_source]
  · split <;> simp [single_source]

/-- The first piece and what follows make up the text. -/
theorem first_append (c : Char) (rest : List Char) :
    (first c rest).1.source ++ (first c rest).2 = c :: rest := by
  unfold first
  split
  · rfl
  · split
    next cut h => exact (comment?_append h).1
    · split
      · simp [stringBody_append]
      · split
        · exact number_append _
        · split
          · exact word_append _
          · exact mark_append c rest

/-- A piece is not empty. -/
theorem first_ne_nil (c : Char) (rest : List Char) : (first c rest).1.source ≠ [] := by
  unfold first
  split
  · simp
  · split
    next cut h => exact (comment?_append h).2
    · split
      · simp
      · split
        next hd =>
          unfold number
          split
          · split <;> simp [hd]
          · simp [hd]
        · split
          next hw => simp [word, continuesWord, hw]
          · unfold mark
            split
            · simp [single_source]
            · split <;> simp [single_source]

theorem length_first_lt (c : Char) (rest : List Char) :
    (first c rest).2.length < (c :: rest).length := by
  have happ := congrArg List.length (first_append c rest)
  have hpos := List.length_pos_iff.mpr (first_ne_nil c rest)
  rw [List.length_append] at happ
  omega

/-- The pieces of a text, in order. -/
def split : List Char → List Piece
  | [] => []
  | c :: rest => (first c rest).1 :: split (first c rest).2
termination_by cs => cs.length
decreasing_by exact length_first_lt c rest

/-- The pieces of a text, put together again, are the text. -/
theorem flatMap_split (cs : List Char) : (split cs).flatMap source = cs := by
  fun_induction split cs with
  | case1 => rfl
  | case2 c rest ih => simp [ih, first_append]

end Piece
end PascalCheck
