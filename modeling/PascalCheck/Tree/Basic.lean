/-! Syntax trees of programs. A tree records what was read, also where a part is absent or could
not be read; a line of zero is unknown. -/
namespace PascalCheck

/-- An expression. -/
inductive Expr where
  /-- Nothing stands where an expression belongs. -/
  | absent
  | literal (value typeName : String) (line : Int)
  | identifier (name : String) (line : Int)
  | call (name : String) (arguments : List Expr) (line : Int)
  | element (name : String) (index : Expr) (line : Int)
  | binary (op : String) (left right : Expr) (line : Int)
  | unary (op : String) (operand : Expr) (line : Int)
  /-- Text that is no expression, where one belongs. -/
  | placeholder (text : String) (line : Int)

/-- A type as it is declared; of an array, the name of the element type. -/
structure TypeSpec where
  name : String := "integer"
  isArray : Bool := false
  deriving DecidableEq

namespace TypeSpec

def render (spec : TypeSpec) : String :=
  if spec.isArray then s!"array of {spec.name}" else spec.name

end TypeSpec

/-- A name in a list of names that are declared together. -/
structure DeclaredName where
  name : String := ""
  line : Int := 0
  deriving DecidableEq

/-- Variables of one type. -/
structure VarDeclaration where
  names : List DeclaredName := []
  typeSpec : TypeSpec := {}
  line : Int := 0
  deriving DecidableEq

structure ConstDeclaration where
  name : String := ""
  value : Expr := .absent
  line : Int := 0

/-- A formal parameter, with the word that says how it is passed. -/
structure Parameter where
  name : String := ""
  typeSpec : TypeSpec := {}
  modifier : Option String := none
  line : Int := 0
  deriving DecidableEq

/-- A value to write, with its width and its number of decimals. -/
structure WriteArgument where
  value : Expr := .absent
  width : Expr := .absent
  decimals : Expr := .absent

/-- A place to read a value into. -/
inductive Target where
  | name (name : String) (line : Int)
  | element (name : String) (index : Expr) (line : Int)

namespace Target

/-- The variable that is read into. -/
def variableName : Target → String
  | name n _ => n
  | element n _ _ => n

def line : Target → Int
  | name _ l => l
  | element _ _ l => l

/-- The target as an expression. -/
def toExpr : Target → Expr
  | name n l => .identifier n l
  | element n i l => .element n i l

end Target

/-- A part of a declaration or statement that stands on its own. -/
inductive Fragment where
  | typeSpec (spec : TypeSpec)
  | declaredName (name : DeclaredName)
  | varDeclaration (declaration : VarDeclaration)
  | constDeclaration (declaration : ConstDeclaration)
  | parameter (parameter : Parameter)
  | writeArgument (argument : WriteArgument)

namespace Fragment

/-- What a fragment is called. -/
def kindName : Fragment → String
  | typeSpec _ => "TypeSpec"
  | declaredName _ => "DeclaredName"
  | varDeclaration _ => "VarDeclaration"
  | constDeclaration _ => "ConstDeclaration"
  | parameter _ => "Param"
  | writeArgument _ => "WriteArg"

end Fragment

mutual

/-- A declaration or a statement, or what stands in the place of one. -/
inductive Node where
  | program (name : String) (declarations : List Node) (body : Body) (line : Int)
  | varSection (declarations : List VarDeclaration) (line : Int)
  | constSection (declarations : List ConstDeclaration) (line : Int)
  | function (name : String) (parameters : List Parameter) (result : TypeSpec)
      (declarations : List Node) (body : Body) (line : Int)
  | procedure (name : String) (parameters : List Parameter) (declarations : List Node)
      (body : Body) (line : Int)
  | block (statements : List Node) (line : Int)
  | assignment (target : String) (value index : Expr) (line : Int)
  | ifThen (condition : Expr) (thenBranch elseBranch : Node) (line : Int)
  | whileDo (condition : Expr) (body : Node) (line : Int)
  | forDo (counter : String) (start finish : Expr) (downward : Bool) (body : Node) (line : Int)
  | repeatUntil (statements : List Node) (condition : Expr) (line : Int)
  | write (routine : String) (arguments : List WriteArgument) (line : Int)
  | read (routine : String) (targets : List Target) (line : Int)
  | call (name : String) (arguments : List Expr) (line : Int)
  /-- An expression in the place of a statement. -/
  | expression (e : Expr)
  /-- A fragment in the place of a statement. -/
  | fragment (f : Fragment)

/-- The statements of a program or routine, unless it has none. -/
inductive Body where
  | missing
  | block (statements : List Node) (line : Int)

end

namespace Node

/-- The empty statement. -/
@[match_pattern] abbrev absent : Node := .expression .absent

/-- The empty statement. -/
def isAbsent : Node → Bool
  | absent => true
  | _ => false

end Node

/-- A program. -/
structure Program where
  name : String := "anonymous"
  declarations : List Node := []
  body : Body := .missing
  line : Int := 0

namespace Program

def toNode (p : Program) : Node :=
  .program p.name p.declarations p.body p.line

end Program
end PascalCheck
