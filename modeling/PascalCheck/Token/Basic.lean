/-! Tokens: reserved words, literals, operators and delimiters, each with its place in the source. -/
namespace PascalCheck

/-- The reserved words. -/
inductive Keyword where
  | «program» | var | «begin» | «end» | integer | real | boolean | char | string
  | «if» | «then» | «else» | «while» | «do» | «for» | «to» | downto | «repeat» | «until»
  | and | or | not | true | false | div | mod
  | write | writeln | read | readln | function | procedure | const | uses | type | array | of
  deriving DecidableEq

namespace Keyword

/-- The spelling of the word. -/
def text : Keyword → String
  | .program => "program" | .var => "var" | .begin => "begin" | .end => "end"
  | .integer => "integer" | .real => "real" | .boolean => "boolean" | .char => "char"
  | .string => "string" | .if => "if" | .then => "then" | .else => "else" | .while => "while"
  | .do => "do" | .for => "for" | .to => "to" | .downto => "downto" | .repeat => "repeat"
  | .until => "until" | .and => "and" | .or => "or" | .not => "not" | .true => "true"
  | .false => "false" | .div => "div" | .mod => "mod" | .write => "write"
  | .writeln => "writeln" | .read => "read" | .readln => "readln" | .function => "function"
  | .procedure => "procedure" | .const => "const" | .uses => "uses" | .type => "type"
  | .array => "array" | .of => "of"

/-- Every reserved word once. -/
def all : List Keyword :=
  [.program, .var, .begin, .end, .integer, .real, .boolean, .char, .string, .if, .then, .else,
   .while, .do, .for, .to, .downto, .repeat, .until, .and, .or, .not, .true, .false, .div,
   .mod, .write, .writeln, .read, .readln, .function, .procedure, .const, .uses, .type,
   .array, .of]

theorem mem_all (word : Keyword) : word ∈ all := by
  cases word <;> decide

/-- The reserved word of a spelling in lower case. -/
def ofText? (text : String) : Option Keyword :=
  all.find? (·.text == text)

theorem text_of_ofText? {text : String} {word : Keyword} (h : ofText? text = some word) :
    word.text = text := by
  simpa using List.find?_some h

/-- The words that name a type. -/
def namesType : Keyword → Bool
  | .integer | .real | .boolean | .char | .string => Bool.true
  | _ => Bool.false

end Keyword

/-- What a token is. -/
inductive TokenKind where
  | integerLiteral | realLiteral | stringLiteral | identifier
  | keyword (word : Keyword)
  | assign | relation
  | plus | minus | star | slash
  | colon | semicolon | dot | dotDot | comma
  | leftParen | rightParen | leftBracket | rightBracket
  | endOfInput
  deriving DecidableEq

namespace TokenKind

/-- The kind as messages call it. -/
def label : TokenKind → String
  | integerLiteral => "integer literal"
  | realLiteral => "real literal"
  | stringLiteral => "string literal"
  | identifier => "identifier"
  | keyword word => word.text
  | assign => ":="
  | relation => "relational operator"
  | plus => "+"
  | minus => "-"
  | star => "*"
  | slash => "/"
  | colon => ":"
  | semicolon => ";"
  | dot => "."
  | dotDot => ".."
  | comma => ","
  | leftParen => "("
  | rightParen => ")"
  | leftBracket => "["
  | rightBracket => "]"
  | endOfInput => "end of input"

/-- The kinds whose spelling does not tell them apart, so that messages name the kind too. -/
def needsLabel : TokenKind → Bool
  | identifier | integerLiteral | realLiteral | stringLiteral | relation => true
  | _ => false

end TokenKind

/-- A token. The text of a word is in lower case if the word is reserved, and that of a string is
what the string says. Lines and columns count from one, offsets from zero. -/
structure Token where
  kind : TokenKind
  text : String
  start : Nat
  line : Int
  column : Int
  deriving DecidableEq

namespace Token

/-- The token as messages describe it. -/
def describe (token : Token) : String :=
  if token.kind = .endOfInput then "end of input"
  else if token.kind.needsLabel then s!"{token.kind.label} '{token.text}'"
  else s!"'{token.text}'"

end Token
end PascalCheck
