import PascalCheck.Proofs.Grammar.DeclarationGrammar
import PascalCheck.Proofs.Typing.Operation

/-! Printing of trees, as the tokens that write them, without places.

An expression stands in parentheses only where its level demands them; a list that may be left out
is left out where it is empty; every parameter is a group of its own, and the bounds of an array, of
which a tree knows nothing, are printed as `1 .. 1`.  A tree is well-formed if it can be written at
all: its parts are there, its operators and words are those of the language, and an `else` goes to
the conditional that has it.  Names may have any spelling. -/
namespace PascalCheck
open Grammar

/-- A token without its place. -/
structure Lexeme where
  kind : TokenKind
  text : String
  deriving DecidableEq

def Token.lexeme (t : Token) : Lexeme :=
  ⟨t.kind, t.text⟩

namespace Lexeme

def name (text : String) : Lexeme :=
  ⟨.identifier, text⟩

/-- The lexeme of a kind that has one spelling. -/
def mark (kind : TokenKind) : Lexeme :=
  ⟨kind, kind.label⟩

/-- Lexemes between brackets. -/
def between (opening closing : TokenKind) (ls : List Lexeme) : List Lexeme :=
  mark opening :: (ls ++ [mark closing])

/-- What items are written with, with separators between them. -/
def joined (separator : TokenKind) : List (List Lexeme) → List Lexeme
  | [] => []
  | [ls] => ls
  | ls :: rest => ls ++ mark separator :: joined separator rest

/-- A list in parentheses, which is left out where there is no item. -/
def parenthesized (separator : TokenKind) (items : List (List Lexeme)) : List Lexeme :=
  if items = [] then [] else between .leftParen .rightParen (joined separator items)

end Lexeme

/-! ### Operators and literals -/

/-- The kind of the token that writes an operator. -/
def operatorKind : String → TokenKind
  | "+" => .plus
  | "-" => .minus
  | "or" => .keyword .or
  | "*" => .star
  | "/" => .slash
  | "div" => .keyword .div
  | "mod" => .keyword .mod
  | "and" => .keyword .and
  | _ => .relation

/-- The level at which an operator joins its operands. -/
def operatorLevel (op : String) : Level :=
  if isMultiplying (operatorKind op) then .term
  else if isAdding (operatorKind op) then .simple
  else .expression

/-- The kind of the token that writes a literal of a type. -/
def literalKind (value typeName : String) : TokenKind :=
  if typeName = "integer" then .integerLiteral
  else if typeName = "real" then .realLiteral
  else if typeName = "boolean" then .keyword (if value = "true" then .true else .false)
  else .stringLiteral

/-- A value can be written, with that type. -/
def isLiteral (value typeName : String) : Bool :=
  typeName = "integer" || typeName = "real" ||
    typeName = "boolean" && (value = "true" || value = "false") ||
    typeName = stringTypeName value

namespace Grammar.Level

/-- The levels in their order. -/
def rank : Level → Nat
  | factor => 0
  | term => 1
  | simple => 2
  | expression => 3

/-- The level of a right operand at a level. -/
def tighter : Level → Level
  | factor | term => factor
  | simple => term
  | expression => simple

end Grammar.Level

/-! ### Expressions -/

namespace Expr

/-- The level at which an expression stands without parentheses. -/
def level : Expr → Level
  | binary op _ _ _ => operatorLevel op
  | unary op _ _ => if op = "not" then .factor else .simple
  | _ => .factor

/-- The lexemes of an expression where an expression of the level belongs. -/
def within (level : Level) (e : Expr) (ls : List Lexeme) : List Lexeme :=
  if e.level.rank ≤ level.rank then ls else Lexeme.between .leftParen .rightParen ls

mutual

/-- The lexemes that write an expression. -/
def print : Expr → List Lexeme
  | literal value typeName _ => [⟨literalKind value typeName, value⟩]
  | identifier name _ => [.name name]
  | call name arguments _ =>
    .name name :: Lexeme.between .leftParen .rightParen (Lexeme.joined .comma (printEach arguments))
  | element name index _ =>
    .name name :: Lexeme.between .leftBracket .rightBracket (print index)
  | binary op left right _ =>
    within (operatorLevel op) left (print left) ++
      ⟨operatorKind op, op⟩ :: within (operatorLevel op).tighter right (print right)
  | unary op operand _ =>
    if op = "not" then .mark (.keyword .not) :: within .factor operand (print operand)
    else .mark .minus :: within .term operand (print operand)
  | absent | placeholder _ _ => []

def printEach : List Expr → List (List Lexeme)
  | [] => []
  | e :: rest => print e :: printEach rest

end

mutual

/-- The expression can be written. -/
def isWellFormed : Expr → Bool
  | literal value typeName _ => isLiteral value typeName
  | identifier _ _ => true
  | call _ arguments _ => allWellFormed arguments
  | element _ index _ => isWellFormed index
  | binary op left right _ => isOperator op && isWellFormed left && isWellFormed right
  | unary op operand _ => (op = "not" || op = "-") && isWellFormed operand
  | absent | placeholder _ _ => false

def allWellFormed : List Expr → Bool
  | [] => true
  | e :: rest => isWellFormed e && allWellFormed rest

end

end Expr

/-! ### Statements -/

/-- A colon and an expression, unless there is none. -/
def Expr.printFormat (e : Expr) : List Lexeme :=
  if e.isAbsent then [] else .mark .colon :: e.print

namespace WriteArgument

def print (argument : WriteArgument) : List Lexeme :=
  argument.value.print ++ (argument.width.printFormat ++ argument.decimals.printFormat)

/-- Decimals stand only behind a width. -/
def isWellFormed (argument : WriteArgument) : Bool :=
  argument.value.isWellFormed &&
    (argument.width.isAbsent && argument.decimals.isAbsent ||
      argument.width.isWellFormed &&
        (argument.decimals.isAbsent || argument.decimals.isWellFormed))

end WriteArgument

def Target.print (target : Target) : List Lexeme :=
  target.toExpr.print

def Target.isWellFormed (target : Target) : Bool :=
  target.toExpr.isWellFormed

/-- The index of an assignment in brackets, unless there is none. -/
def Expr.printIndex (index : Expr) : List Lexeme :=
  if index.isAbsent then [] else Lexeme.between .leftBracket .rightBracket index.print

/-- The one of two reserved words that has the spelling. -/
def Lexeme.wordOf (first second : Keyword) (text : String) : Lexeme :=
  mark (.keyword (if text = first.text then first else second))

namespace Node

mutual

/-- The lexemes that write a statement. -/
def print : Node → List Lexeme
  | assignment target value index _ =>
    .name target :: (index.printIndex ++ .mark .assign :: value.print)
  | ifThen condition thenBranch elseBranch _ =>
    .mark (.keyword .if) :: (condition.print ++ .mark (.keyword .then) ::
      (print thenBranch ++
        if elseBranch.isAbsent then [] else .mark (.keyword .else) :: print elseBranch))
  | whileDo condition body _ =>
    .mark (.keyword .while) :: (condition.print ++ .mark (.keyword .do) :: print body)
  | forDo counter start finish downward body _ =>
    .mark (.keyword .for) :: .name counter :: .mark .assign ::
      (start.print ++ .mark (.keyword (directionWord downward)) ::
        (finish.print ++ .mark (.keyword .do) :: print body))
  | repeatUntil statements condition _ =>
    .mark (.keyword .repeat) :: (Lexeme.joined .semicolon (printEach statements) ++
      .mark (.keyword .until) :: condition.print)
  | write routine arguments _ =>
    .wordOf .write .writeln routine ::
      Lexeme.parenthesized .comma (arguments.map WriteArgument.print)
  | read routine targets _ =>
    .wordOf .read .readln routine :: Lexeme.parenthesized .comma (targets.map Target.print)
  | call name arguments _ =>
    .name name :: Lexeme.parenthesized .comma (Expr.printEach arguments)
  | block statements _ =>
    Lexeme.between (.keyword .begin) (.keyword .end)
      (Lexeme.joined .semicolon (printEach statements))
  | _ => []

def printEach : List Node → List (List Lexeme)
  | [] => []
  | n :: rest => print n :: printEach rest

end

mutual

/-- The statement, which may be empty, can be written.  A branch in front of an `else` is one that
the `else` cannot be a part of. -/
def isWellFormed : Node → Bool
  | .absent => true
  | assignment _ value index _ => value.isWellFormed && (index.isAbsent || index.isWellFormed)
  | ifThen condition thenBranch elseBranch _ =>
    condition.isWellFormed && isWellFormed thenBranch && isWellFormed elseBranch &&
      (elseBranch.isAbsent || thenBranch.isAbsent || thenBranch.isClosed)
  | whileDo condition body _ => condition.isWellFormed && isWellFormed body
  | forDo _ start finish _ body _ =>
    start.isWellFormed && finish.isWellFormed && isWellFormed body
  | repeatUntil statements condition _ => allWellFormed statements && condition.isWellFormed
  | write routine arguments _ =>
    (routine = "write" || routine = "writeln") && arguments.all WriteArgument.isWellFormed
  | read routine targets _ =>
    (routine = "read" || routine = "readln") && targets.all Target.isWellFormed
  | call _ arguments _ => Expr.allWellFormed arguments
  | block statements _ => allWellFormed statements
  | _ => false

/-- Each statement of a list is there and can be written. -/
def allWellFormed : List Node → Bool
  | [] => true
  | n :: rest => !n.isAbsent && isWellFormed n && allWellFormed rest

end

end Node

/-! ### Declarations -/

namespace TypeSpec

/-- The kind of the token that names a type. -/
def nameKind (name : String) : TokenKind :=
  match Keyword.ofText? name with
  | some word => if word.namesType then .keyword word else .identifier
  | none => .identifier

/-- An array has bounds, of which a tree knows nothing. -/
def print (spec : TypeSpec) : List Lexeme :=
  let name : Lexeme := ⟨nameKind spec.name, spec.name⟩
  if spec.isArray then
    [.mark (.keyword .array), .mark .leftBracket, ⟨.integerLiteral, "1"⟩, .mark .dotDot,
      ⟨.integerLiteral, "1"⟩, .mark .rightBracket, .mark (.keyword .of), name]
  else [name]

/-- A type is known by its name in lower case. -/
def isWellFormed (spec : TypeSpec) : Bool :=
  Text.lower spec.name = spec.name

end TypeSpec

def DeclaredName.print (name : DeclaredName) : List Lexeme :=
  [.name name.name]

namespace VarDeclaration

def print (declaration : VarDeclaration) : List Lexeme :=
  Lexeme.joined .comma (declaration.names.map DeclaredName.print) ++
    .mark .colon :: (declaration.typeSpec.print ++ [.mark .semicolon])

def isWellFormed (declaration : VarDeclaration) : Bool :=
  declaration.names ≠ [] && declaration.typeSpec.isWellFormed

end VarDeclaration

namespace ConstDeclaration

def print (declaration : ConstDeclaration) : List Lexeme :=
  .name declaration.name :: ⟨.relation, "="⟩ :: (declaration.value.print ++ [.mark .semicolon])

def isWellFormed (declaration : ConstDeclaration) : Bool :=
  declaration.value.isWellFormed

end ConstDeclaration

namespace Parameter

/-- A parameter as a group of its own. -/
def print (parameter : Parameter) : List Lexeme :=
  parameter.modifier.toList.map (Lexeme.wordOf .var .const) ++
    .name parameter.name :: .mark .colon :: parameter.typeSpec.print

def isWellFormed (parameter : Parameter) : Bool :=
  parameter.modifier ∈ [none, some "var", some "const"] && parameter.typeSpec.isWellFormed

end Parameter

namespace Body

def print : Body → List Lexeme
  | missing => []
  | block statements _ =>
    Lexeme.between (.keyword .begin) (.keyword .end)
      (Lexeme.joined .semicolon (Node.printEach statements))

def isWellFormed : Body → Bool
  | missing => false
  | block statements _ => Node.allWellFormed statements

end Body

namespace Node

/-- The lexemes that write a section of variables or constants. -/
def printSection : Node → List Lexeme
  | varSection declarations _ =>
    .mark (.keyword .var) :: declarations.flatMap VarDeclaration.print
  | constSection declarations _ =>
    .mark (.keyword .const) :: declarations.flatMap ConstDeclaration.print
  | _ => []

def isSection : Node → Bool
  | varSection declarations _ => declarations.all VarDeclaration.isWellFormed
  | constSection declarations _ => declarations.all ConstDeclaration.isWellFormed
  | _ => false

/-- The lexemes that write a declaration of a program. -/
def printDeclaration : Node → List Lexeme
  | function name parameters result declarations body _ =>
    .mark (.keyword .function) :: .name name ::
      (Lexeme.parenthesized .semicolon (parameters.map Parameter.print) ++ .mark .colon ::
        (result.print ++ .mark .semicolon ::
          (declarations.flatMap printSection ++ (body.print ++ [.mark .semicolon]))))
  | procedure name parameters declarations body _ =>
    .mark (.keyword .procedure) :: .name name ::
      (Lexeme.parenthesized .semicolon (parameters.map Parameter.print) ++ .mark .semicolon ::
        (declarations.flatMap printSection ++ (body.print ++ [.mark .semicolon])))
  | declaration => printSection declaration

/-- The declaration, which in a routine is a section, can be written. -/
def isDeclaration : Node → Bool
  | function _ parameters result declarations body _ =>
    parameters.all Parameter.isWellFormed && result.isWellFormed && declarations.all isSection &&
      body.isWellFormed
  | procedure _ parameters declarations body _ =>
    parameters.all Parameter.isWellFormed && declarations.all isSection && body.isWellFormed
  | declaration => isSection declaration

end Node

namespace Program

/-- The lexemes that write a program, with its heading and its dot. -/
def print (p : Program) : List Lexeme :=
  .mark (.keyword .program) :: .name p.name :: .mark .semicolon ::
    (p.declarations.flatMap Node.printDeclaration ++ (p.body.print ++ [.mark .dot]))

/-- The program can be written. -/
def isWellFormed (p : Program) : Bool :=
  p.declarations.all Node.isDeclaration && p.body.isWellFormed

end Program
end PascalCheck
