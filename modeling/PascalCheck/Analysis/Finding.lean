import PascalCheck.Diagnostic.Basic
import PascalCheck.Scope.Basic
import PascalCheck.Ty.Operator

/-! What the analysis of a program finds, and how it is worded. -/
namespace PascalCheck

/-- What a declaration declares. -/
inductive Declared where
  | variable | constant | parameter
  deriving DecidableEq

namespace Declared

def label : Declared → String
  | .variable => "variable"
  | .constant => "constant"
  | .parameter => "parameter"

end Declared

/-- A statement that depends on a condition. -/
inductive Conditional where
  | ifThen | whileDo | repeatUntil
  deriving DecidableEq

namespace Conditional

def label : Conditional → String
  | ifThen => "IF"
  | whileDo => "WHILE"
  | repeatUntil => "UNTIL"

/-- What to write as the condition. -/
def advice : Conditional → String
  | ifThen => "Use a relational expression (e.g. x > 0) or a boolean variable"
  | whileDo => "Use a relational expression (e.g. i <= 10) or a boolean variable"
  | repeatUntil => "Use a relational expression or a boolean variable"

end Conditional

/-- Either end of the range of a counter. -/
inductive Bound where
  | start | finish
  deriving DecidableEq

namespace Bound

def label : Bound → String
  | start => "start"
  | finish => "end"

end Bound

/-- Whether a routine yields a value. -/
inductive RoutineKind where
  | function | procedure
  deriving DecidableEq

namespace RoutineKind

def label : RoutineKind → String
  | function => "function"
  | procedure => "procedure"

end RoutineKind

/-- Something found in a program. -/
inductive Finding where
  | redeclared (what : Declared) (name scope : String) (ty : Ty) (line : Int)
  | routineRedeclared (kind : RoutineKind) (name : String) (previous : RoutineKind) (line : Int)
  | undeclared (name : String)
  | counterModified (name : String)
  | constantAssigned (name : String)
  | narrowed (name : String)
  | mismatch (value : Ty) (name : String) (ty : Ty)
  | condition (statement : Conditional) (ty : Ty)
  | counterUndeclared (name : String)
  | counterConstant (name : String)
  | counterType (name : String) (ty : Ty)
  | bound (which : Bound) (ty : Ty)
  | readUndeclared (name routine : String)
  | readBoolean (name routine : String)
  | builtinArity (kind : RoutineKind) (name arity : String) (given : Nat)
  | resultUnused (name : String)
  | routineArity (kind : RoutineKind) (name : String) (expected given : Nat)
  | variableCalled (name : String)
  | unknownProcedure (name : String)
  | uninitialized (name : String)
  | elementUndeclared (name : String)
  | noValue (name : String)
  | variableApplied (name : String)
  | unknownFunction (name : String)
  | incompatible (op : String) (left right : Ty)
  | notOperand (ty : Ty)
  | negated (ty : Ty)
  | shadowing (first : Symbol) (sites : List Symbol)
  | typeAmbiguity (first : Symbol) (sites : List Symbol)
  | unused (name : String) (line : Int)
  deriving DecidableEq

namespace Finding

/-- Doubtful programs are warned about; the rest is in error. -/
def severity : Finding → Severity
  | readBoolean .. | resultUnused .. | uninitialized .. | shadowing .. | typeAmbiguity ..
  | unused .. => .warning
  | _ => .error

/-- A declaration among those that share a name. -/
def site (symbol : Symbol) : String :=
  s!"'{symbol.scope}' (line {symbol.line}, type: {symbol.ty.name})"

/-- The type of a declaration among those that share a name. -/
def typeSite (symbol : Symbol) : String :=
  s!"'{symbol.ty.name}' in scope '{symbol.scope}'"

def message : Finding → String
  | redeclared what name scope ty line =>
    s!"Redeclaration of {what.label} '{name}' in scope '{scope}'. " ++
      s!"It was already declared as '{ty.name}' on line {line}"
  | routineRedeclared kind name previous line =>
    s!"Redeclaration of {kind.label} '{name}'. " ++
      s!"A {previous.label} with this name was already declared on line {line}"
  | undeclared name =>
    s!"Variable '{name}' is not declared. Declare it in a VAR section before using it"
  | counterModified name =>
    s!"Cannot modify the control variable '{name}' inside the body of its FOR loop. " ++
      "The control variable is read-only while the loop runs"
  | constantAssigned name =>
    s!"Cannot assign a value to the constant '{name}'. Constants are read-only"
  | narrowed name =>
    s!"Type mismatch: cannot assign 'real' to variable '{name}' of type 'integer'. " ++
      "Narrowing real to integer is not allowed in Pascal. Use Trunc() or Round()"
  | mismatch value name ty =>
    s!"Type mismatch: cannot assign '{value.name}' to variable '{name}' of type '{ty.name}'"
  | condition statement ty =>
    s!"The {statement.label} condition must be of type 'boolean', but got '{ty.name}'. " ++
      statement.advice
  | counterUndeclared name => s!"FOR control variable '{name}' is not declared"
  | counterConstant name => s!"The constant '{name}' cannot be used as a FOR control variable"
  | counterType name ty =>
    s!"The FOR control variable '{name}' must be of ordinal type ('integer'), " ++
      s!"but it is of type '{ty.name}'. Pascal FOR loops only accept ordinal types"
  | bound which ty => s!"The FOR {which.label} value must be 'integer', got '{ty.name}'"
  | readUndeclared name routine => s!"Variable '{name}' in {routine} is not declared"
  | readBoolean name routine =>
    s!"The boolean variable '{name}' cannot be read directly with {routine}"
  | builtinArity kind name arity given =>
    s!"The {kind.label} '{name}' requires {arity}, {given} given"
  | resultUnused name =>
    s!"'{name}' is a function, not a procedure. Its return value is not used"
  | routineArity kind name expected given =>
    s!"The {kind.label} '{name}' expects {expected} argument(s), {given} given"
  | variableCalled name =>
    s!"'{name}' is a variable, not a procedure. It cannot be called as a statement"
  | unknownProcedure name =>
    s!"Unknown procedure '{name}'. It is neither a built-in Pascal procedure " ++
      "nor a declared routine or variable"
  | uninitialized name =>
    s!"Variable '{name}' is used before being initialized. " ++
      "Its value is undefined and may cause unpredictable results"
  | elementUndeclared name => s!"Variable '{name}' is not declared"
  | noValue name =>
    s!"'{name}' is a procedure and does not return a value. It cannot be used in an expression"
  | variableApplied name =>
    s!"'{name}' is a variable, not a function. It cannot be called with parentheses"
  | unknownFunction name =>
    s!"Unknown function '{name}'. It is neither a built-in Pascal function " ++
      "nor a declared variable"
  | incompatible op left right =>
    let kind := Ty.operationClass op
    let advice := Ty.operandAdvice op left right
    s!"Incompatible {kind} operation '{op}' between types " ++
      s!"'{left.name}' and '{right.name}'. {advice}"
  | notOperand ty =>
    s!"Operator 'not' requires a 'boolean' operand, got '{ty.name}'. " ++
      "Only logical expressions can be negated"
  | negated ty =>
    s!"Unary negation '-' requires a numeric type (integer or real), got '{ty.name}'"
  | shadowing first sites =>
    let places := " and ".intercalate (sites.map site)
    s!"Shadowing ambiguity: the identifier '{first.name}' is declared in multiple scopes: " ++
      s!"{places}. This can cause confusion about which variable is being used"
  | typeAmbiguity first sites =>
    let types := ", ".intercalate (sites.map typeSite)
    s!"Type ambiguity: the identifier '{first.name}' has different types in different scopes: " ++
      s!"{types}. The expected type of the identifier is unclear"
  | unused name line =>
    s!"Variable '{name}' declared on line {line} but never used. " ++
      "Consider removing it or check whether it should be used"

end Finding

/-- A finding and the line it is about. -/
structure LocatedFinding where
  finding : Finding
  line : Int
  deriving DecidableEq

namespace LocatedFinding

/-- The diagnostic of a finding. -/
def diagnostic (found : LocatedFinding) : Diagnostic :=
  .of found.finding.severity .semantic found.finding.message ⟨some found.line, none⟩ ""

end LocatedFinding
end PascalCheck
