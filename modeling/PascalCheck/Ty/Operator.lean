import PascalCheck.Ty.Basic

/-! Operators, and the types of what they yield. -/
namespace PascalCheck

/-- The operators with two operands. -/
inductive Operator where
  | equal | unequal | less | greater | atMost | atLeast
  | add | subtract | multiply | divide | div | mod
  | and | or
  deriving DecidableEq

namespace Operator

def text : Operator → String
  | equal => "="
  | unequal => "<>"
  | less => "<"
  | greater => ">"
  | atMost => "<="
  | atLeast => ">="
  | add => "+"
  | subtract => "-"
  | multiply => "*"
  | divide => "/"
  | div => "div"
  | mod => "mod"
  | and => "and"
  | or => "or"

def all : List Operator :=
  [equal, unequal, less, greater, atMost, atLeast, add, subtract, multiply, divide, div, mod, and,
   or]

/-- The operator of a spelling in any letter case. -/
def ofText? (text : String) : Option Operator :=
  all.find? (·.text == Text.lower text)

/-- The type of an operation on two types, if it is defined for them. -/
def result? : Operator → Ty → Ty → Option Ty
  | add, .integer, .integer | subtract, .integer, .integer | multiply, .integer, .integer =>
    some .integer
  | div, .integer, .integer | mod, .integer, .integer => some .integer
  | add, l, r =>
    match l, r with
    | .integer, .real | .real, .integer | .real, .real => some .real
    | .char, .char | .char, .string | .string, .char | .string, .string => some .string
    | _, _ => none
  | subtract, l, r | multiply, l, r =>
    match l, r with
    | .integer, .real | .real, .integer | .real, .real => some .real
    | _, _ => none
  | divide, l, r =>
    match l, r with
    | .integer, .integer | .integer, .real | .real, .integer | .real, .real => some .real
    | _, _ => none
  | equal, l, r | unequal, l, r =>
    match l, r with
    | .integer, .integer | .integer, .real | .real, .integer | .real, .real => some .boolean
    | .boolean, .boolean | .char, .char | .string, .string => some .boolean
    | _, _ => none
  | less, l, r | greater, l, r =>
    match l, r with
    | .integer, .integer | .integer, .real | .real, .integer | .real, .real => some .boolean
    | .char, .char => some .boolean
    | _, _ => none
  | atMost, l, r | atLeast, l, r =>
    match l, r with
    | .integer, .integer | .integer, .real | .real, .integer | .real, .real => some .boolean
    | _, _ => none
  | and, .boolean, .boolean | or, .boolean, .boolean => some .boolean
  | _, _, _ => none

end Operator

namespace Ty

/-- The type of an operation as it is spelled; an error if an operand is one, none if the operation
is not defined for the operands. -/
def binary? (op : String) (left right : Ty) : Option Ty :=
  if left.isError || right.isError then some .error
  else (Operator.ofText? op).bind fun operator => operator.result? left right

/-- The class of an operator as messages call it; empty for what is no operator. -/
def operationClass (op : String) : String :=
  let key := Text.lower op
  if ["=", "<>", "<", ">", "<=", ">="].contains key then "relational"
  else if ["and", "or", "not"].contains key then "logical"
  else if ["+", "-", "*", "/", "div", "mod"].contains key then "arithmetic"
  else ""

/-- Advice on an operation that is not defined for its operands. -/
def operandAdvice (op : String) (left right : Ty) : String :=
  let isNumber (t : Ty) := t.name == "integer" || t.name == "real"
  if isNumber left && right.name == "boolean" then
    "Numeric types cannot be mixed with boolean in arithmetic operations"
  else if left.name == "boolean" && isNumber right then
    "Boolean values cannot be mixed with numeric types"
  else if (left.name == "string" || left.name == "char") && isNumber right then
    "Strings cannot be mixed with numeric types"
  else if left.name == "boolean" && ["+", "-", "*", "/"].contains op then
    "Boolean values do not support arithmetic operators. Use 'and', 'or'"
  else if ["div", "mod"].contains (Text.lower op) && right.name == "real" then
    "The 'div' and 'mod' operators only accept integer operands"
  else "Check that both operands have compatible types"

end Ty
end PascalCheck
