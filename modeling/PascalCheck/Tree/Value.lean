import PascalCheck.Tree.Basic

/-! Syntax trees as values of one kind: a part of a tree is what it is called, its line, and what is
in its fields, whatever these are. -/
namespace PascalCheck

/-- What a field may hold. -/
inductive FieldShape where
  | text
  /-- A text that may be missing. -/
  | optionalText
  | flag
  /-- A part that may be missing. -/
  | part
  /-- A list of parts, some of which may be missing. -/
  | parts
  deriving DecidableEq

/-- What a part of a tree may be. -/
inductive PartKind where
  | typeSpec | declaredName | varDeclaration | constDeclaration | parameter | writeArgument
  | varSection | constSection | block | function | procedure | program
  | assignment | ifThen | whileDo | forDo | repeatUntil | write | read | call
  | binary | unary | literal | identifier | functionCall | element | placeholder
  deriving DecidableEq

namespace PartKind

/-- What a part is called. -/
def label : PartKind → String
  | typeSpec => "TypeSpec"
  | declaredName => "DeclaredName"
  | varDeclaration => "VarDeclaration"
  | constDeclaration => "ConstDeclaration"
  | parameter => "Param"
  | writeArgument => "WriteArg"
  | varSection => "VarSection"
  | constSection => "ConstSection"
  | block => "Block"
  | function => "FunctionDecl"
  | procedure => "ProcedureDecl"
  | program => "Program"
  | assignment => "Assignment"
  | ifThen => "IfStatement"
  | whileDo => "WhileStatement"
  | forDo => "ForStatement"
  | repeatUntil => "RepeatStatement"
  | write => "WriteStatement"
  | read => "ReadStatement"
  | call => "ProcedureCall"
  | binary => "BinaryOp"
  | unary => "UnaryOp"
  | literal => "Literal"
  | identifier => "Identifier"
  | functionCall => "FunctionCall"
  | element => "ArrayAccess"
  | placeholder => "ErrorNode"

/-- The fields of a part, in order. -/
def fields : PartKind → List (String × FieldShape)
  | typeSpec => [("name", .text), ("is_array", .flag)]
  | declaredName => [("name", .text)]
  | varDeclaration => [("names", .parts), ("type_spec", .part)]
  | constDeclaration => [("name", .text), ("value", .part)]
  | parameter => [("name", .text), ("type_spec", .part), ("modifier", .optionalText)]
  | writeArgument => [("value", .part), ("width", .part), ("decimals", .part)]
  | varSection => [("declarations", .parts)]
  | constSection => [("declarations", .parts)]
  | block => [("statements", .parts)]
  | function =>
    [("name", .text), ("params", .parts), ("return_type", .part), ("declarations", .parts),
      ("body", .part)]
  | procedure => [("name", .text), ("params", .parts), ("declarations", .parts), ("body", .part)]
  | program => [("name", .text), ("declarations", .parts), ("body", .part)]
  | assignment => [("target", .text), ("value", .part), ("index", .part)]
  | ifThen => [("condition", .part), ("then_branch", .part), ("else_branch", .part)]
  | whileDo => [("condition", .part), ("body", .part)]
  | forDo =>
    [("variable", .text), ("start", .part), ("end", .part), ("downto", .flag), ("body", .part)]
  | repeatUntil => [("statements", .parts), ("condition", .part)]
  | write => [("routine", .text), ("arguments", .parts)]
  | read => [("routine", .text), ("targets", .parts)]
  | call => [("name", .text), ("arguments", .parts)]
  | binary => [("op", .text), ("left", .part), ("right", .part)]
  | unary => [("op", .text), ("operand", .part)]
  | literal => [("value", .text), ("type_name", .text)]
  | identifier => [("name", .text)]
  | functionCall => [("name", .text), ("arguments", .parts)]
  | element => [("name", .text), ("index", .part)]
  | placeholder => [("text", .text)]

/-- The names of the fields, in order. -/
def fieldNames (kind : PartKind) : List String :=
  kind.fields.map (·.1)

/-- What the fields may hold, in order. -/
def shapes (kind : PartKind) : List FieldShape :=
  kind.fields.map (·.2)

end PartKind

/-- A part of a syntax tree, or what else stands in a field of one. A line of zero is unknown, and a
type or an argument to write has none. -/
inductive SyntaxValue where
  /-- Nothing, where something may be missing. -/
  | nothing
  | text (value : String)
  | flag (value : Bool)
  | list (items : List SyntaxValue)
  | part (kind : PartKind) (line : Int) (fields : List SyntaxValue)

namespace Expr

mutual

def toValue : Expr → SyntaxValue
  | absent => .nothing
  | literal value typeName line => .part .literal line [.text value, .text typeName]
  | identifier name line => .part .identifier line [.text name]
  | call name arguments line =>
    .part .functionCall line [.text name, .list (toValues arguments)]
  | element name index line => .part .element line [.text name, toValue index]
  | binary op left right line => .part .binary line [.text op, toValue left, toValue right]
  | unary op operand line => .part .unary line [.text op, toValue operand]
  | placeholder text line => .part .placeholder line [.text text]

def toValues : List Expr → List SyntaxValue
  | [] => []
  | e :: rest => toValue e :: toValues rest

end

end Expr

def TypeSpec.toValue (spec : TypeSpec) : SyntaxValue :=
  .part .typeSpec 0 [.text spec.name, .flag spec.isArray]

def DeclaredName.toValue (d : DeclaredName) : SyntaxValue :=
  .part .declaredName d.line [.text d.name]

def VarDeclaration.toValue (d : VarDeclaration) : SyntaxValue :=
  .part .varDeclaration d.line [.list (d.names.map DeclaredName.toValue), d.typeSpec.toValue]

def ConstDeclaration.toValue (d : ConstDeclaration) : SyntaxValue :=
  .part .constDeclaration d.line [.text d.name, d.value.toValue]

def Parameter.toValue (p : Parameter) : SyntaxValue :=
  .part .parameter p.line
    [.text p.name, p.typeSpec.toValue, (p.modifier.map SyntaxValue.text).getD .nothing]

def WriteArgument.toValue (a : WriteArgument) : SyntaxValue :=
  .part .writeArgument 0 [a.value.toValue, a.width.toValue, a.decimals.toValue]

namespace Fragment

def toValue : Fragment → SyntaxValue
  | typeSpec spec => spec.toValue
  | declaredName name => name.toValue
  | varDeclaration declaration => declaration.toValue
  | constDeclaration declaration => declaration.toValue
  | parameter p => p.toValue
  | writeArgument a => a.toValue

end Fragment

namespace Node

mutual

def toValue : Node → SyntaxValue
  | program name declarations body line =>
    .part .program line [.text name, .list (toValues declarations), bodyToValue body]
  | varSection declarations line =>
    .part .varSection line [.list (declarations.map VarDeclaration.toValue)]
  | constSection declarations line =>
    .part .constSection line [.list (declarations.map ConstDeclaration.toValue)]
  | function name parameters result declarations body line =>
    .part .function line
      [.text name, .list (parameters.map Parameter.toValue), result.toValue,
        .list (toValues declarations), bodyToValue body]
  | procedure name parameters declarations body line =>
    .part .procedure line
      [.text name, .list (parameters.map Parameter.toValue), .list (toValues declarations),
        bodyToValue body]
  | block statements line => .part .block line [.list (toValues statements)]
  | assignment target value index line =>
    .part .assignment line [.text target, value.toValue, index.toValue]
  | ifThen condition thenBranch elseBranch line =>
    .part .ifThen line [condition.toValue, toValue thenBranch, toValue elseBranch]
  | whileDo condition body line => .part .whileDo line [condition.toValue, toValue body]
  | forDo counter start finish downward body line =>
    .part .forDo line
      [.text counter, start.toValue, finish.toValue, .flag downward, toValue body]
  | repeatUntil statements condition line =>
    .part .repeatUntil line [.list (toValues statements), condition.toValue]
  | write routine arguments line =>
    .part .write line [.text routine, .list (arguments.map WriteArgument.toValue)]
  | read routine targets line =>
    .part .read line [.text routine, .list (targets.map fun target => target.toExpr.toValue)]
  | call name arguments line => .part .call line [.text name, .list (Expr.toValues arguments)]
  | expression e => e.toValue
  | fragment f => f.toValue

def toValues : List Node → List SyntaxValue
  | [] => []
  | node :: rest => toValue node :: toValues rest

def bodyToValue : Body → SyntaxValue
  | .missing => .nothing
  | .block statements line => .part .block line [.list (toValues statements)]

end

end Node
end PascalCheck
