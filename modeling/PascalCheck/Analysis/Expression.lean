import PascalCheck.Analysis.State
import PascalCheck.Tree.Basic

/-! The types of expressions. An expression in which a fault is found has the type of errors, which
the expressions around it pass on without a report of their own. -/
namespace PascalCheck
namespace Analysis

variable (catalogue : Catalogue)

/-- The type that a literal names. -/
def literalType (typeName : String) : Analysis Ty :=
  match Ty.ofName? typeName with
  | some ty => pure ty
  | none => throw (.unknownType typeName)

/-- A finding in an expression, which gives it the type of errors. -/
def reject (line : Int) (finding : Finding) : Analysis Ty := do
  report line finding
  return .error

/-- The result of a call in an expression. Built-in functions come first, then the routines of the
program, then built-in procedures. -/
def callType (name : String) (arguments : List Ty) (line : Int) : Analysis Ty := do
  let given := arguments.length
  match catalogue.function? name with
  | some builtin =>
    if builtin.accepts given then
      match builtin.resultType? arguments with
      | some ty => return ty
      | none => throw .noResult
    else reject line (.builtinArity .function name builtin.arity given)
  | none =>
    match ← routine? name with
    | some routine =>
      match routine.result with
      | some ty =>
        unless given = routine.parameters do
          report line (.routineArity .function name routine.parameters given)
        return ty
      | none => reject line (.noValue name)
    | none =>
      if (catalogue.procedure? name).isSome then reject line (.noValue name)
      else if (← symbol? name).isSome then reject line (.variableApplied name)
      else reject line (.unknownFunction name)

/-- The name belongs to a routine. -/
def isRoutine (name : String) : Analysis Bool := do
  return (catalogue.function? name).isSome || (catalogue.procedure? name).isSome ||
    (← routine? name).isSome

/-- The type of a name: that of the symbol it means, or else the result of the routine it calls. -/
def nameType (name : String) (line : Int) : Analysis Ty := do
  match ← symbol? name with
  | some symbol =>
    unless symbol.initialized do report line (.uninitialized name)
    changeTable (·.countUse name)
    return symbol.ty
  | none =>
    if ← isRoutine catalogue name then callType catalogue name [] line
    else reject line (.undeclared name)

/-- The type of an element of an array. -/
def elementType (name : String) (line : Int) : Analysis Ty := do
  match ← symbol? name with
  | some symbol =>
    changeTable (·.countUse name)
    return symbol.ty
  | none => reject line (.elementUndeclared name)

/-- The type of an operation with two operands. -/
def binaryType (op : String) (left right : Ty) (line : Int) : Analysis Ty :=
  match Ty.binary? op left right with
  | some ty => pure ty
  | none => reject line (.incompatible op left right)

/-- The type of an operation with one operand. Any operator but `not` is a negation. -/
def unaryType (op : String) (operand : Ty) (line : Int) : Analysis Ty :=
  if operand.isError then pure .error
  else if op = "not" then
    if operand.same .boolean then pure .boolean else reject line (.notOperand operand)
  else if operand.isNumeric then pure operand
  else reject line (.negated operand)

mutual

/-- The type of an expression. One that is absent has been reported and is in error. -/
def typeOf : Expr → Analysis Ty
  | .absent => pure .error
  | .literal _ typeName _ => literalType typeName
  | .identifier name line => nameType catalogue name line
  | .call name arguments line => do
    let types ← typesOf arguments
    callType catalogue name types line
  | .element name index line => do
    let _ ← typeOf index
    elementType name line
  | .binary op left right line => do
    let l ← typeOf left
    let r ← typeOf right
    binaryType op l r line
  | .unary op operand line => do
    let t ← typeOf operand
    unaryType op t line
  | .placeholder _ _ => pure .error

/-- The types of expressions, in order. -/
def typesOf : List Expr → Analysis (List Ty)
  | [] => pure []
  | e :: rest => do
    let t ← typeOf e
    let ts ← typesOf rest
    return t :: ts

end

end Analysis
end PascalCheck
