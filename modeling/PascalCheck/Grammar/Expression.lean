import PascalCheck.Grammar.Step
import PascalCheck.Tree.Basic

/-! Reading of expressions.

    Expression ::= Simple (Relation Simple)*
    Simple     ::= ['+' | '-'] Term (('+' | '-' | 'or') Term)*
    Term       ::= Factor (('*' | '/' | 'div' | 'mod' | 'and') Factor)*

A factor is a literal, a name, a call, an element of an array, a negated factor, or an expression in
parentheses. -/
namespace PascalCheck
namespace Grammar

/-- The operators that join terms. -/
def isAdding : TokenKind → Bool
  | .plus | .minus | .keyword .or => true
  | _ => false

/-- The operators that join factors. -/
def isMultiplying : TokenKind → Bool
  | .star | .slash | .keyword .div | .keyword .mod | .keyword .and => true
  | _ => false

/-- The tokens that are left to the enclosing rule where a factor belongs. -/
def isStructural : TokenKind → Bool
  | .semicolon | .keyword .end | .keyword .until | .endOfInput => true
  | _ => false

/-- The sign in front of a term. -/
def sign? : List Token → Option Token
  | t :: _ => if t.kind = .plus ∨ t.kind = .minus then some t else none
  | [] => none

/-- A minus sign negates; a plus sign leaves no trace. -/
def signed (sign : Option Token) (e : Expr) : Expr :=
  match sign with
  | some t => if t.kind = .minus then .unary "-" e t.line else e
  | none => e

/-- A string of one character is a character. -/
def stringTypeName (text : String) : String :=
  if text.length = 1 then "char" else "string"

variable (finish : EndMark)

mutual

def expression (tokens : List Token) : Step Expr :=
  let first := simple tokens
  first.andThen (relations first.value (tokens.drop first.used))
termination_by 5 * tokens.length + 3
decreasing_by all_goals (try simp only [List.length_drop]); omega

/-- The relations that follow the left operand. -/
def relations (left : Expr) (tokens : List Token) : Step Expr :=
  match tokens with
  | [] => ⟨left, 0, []⟩
  | t :: rest =>
    if t.kind = .relation then
      let right := simple rest
      let joined := Expr.binary t.text left right.value t.line
      (right.andThen (relations joined (rest.drop right.used))).past 1
    else ⟨left, 0, []⟩
termination_by 5 * tokens.length
decreasing_by all_goals (try simp only [List.length_drop, List.length_cons]); omega

def simple (tokens : List Token) : Step Expr :=
  let sign := sign? tokens
  let width := sign.toList.length
  let first := (term (tokens.drop width)).past width
  first.andThen (sums (signed sign first.value) (tokens.drop first.used))
termination_by 5 * tokens.length + 2
decreasing_by all_goals (try simp only [List.length_drop]); omega

/-- The terms that follow the left operand. -/
def sums (left : Expr) (tokens : List Token) : Step Expr :=
  match tokens with
  | [] => ⟨left, 0, []⟩
  | t :: rest =>
    if isAdding t.kind then
      let right := term rest
      let joined := Expr.binary t.text left right.value t.line
      (right.andThen (sums joined (rest.drop right.used))).past 1
    else ⟨left, 0, []⟩
termination_by 5 * tokens.length
decreasing_by all_goals (try simp only [List.length_drop, List.length_cons]); omega

def term (tokens : List Token) : Step Expr :=
  let first := factor tokens
  first.andThen (products first.value (tokens.drop first.used))
termination_by 5 * tokens.length + 1
decreasing_by all_goals (try simp only [List.length_drop]); omega

/-- The factors that follow the left operand. -/
def products (left : Expr) (tokens : List Token) : Step Expr :=
  match tokens with
  | [] => ⟨left, 0, []⟩
  | t :: rest =>
    if isMultiplying t.kind then
      let right := factor rest
      let joined := Expr.binary t.text left right.value t.line
      (right.andThen (products joined (rest.drop right.used))).past 1
    else ⟨left, 0, []⟩
termination_by 5 * tokens.length
decreasing_by all_goals (try simp only [List.length_drop, List.length_cons]); omega

def factor (tokens : List Token) : Step Expr :=
  match tokens with
  | [] => (refuse finish .factor []).as (.placeholder finish.text finish.line)
  | t :: rest =>
    match t.kind with
    | .integerLiteral => ⟨.literal t.text "integer" t.line, 1, []⟩
    | .realLiteral => ⟨.literal t.text "real" t.line, 1, []⟩
    | .stringLiteral => ⟨.literal t.text (stringTypeName t.text) t.line, 1, []⟩
    | .keyword .true | .keyword .false => ⟨.literal t.text "boolean" t.line, 1, []⟩
    | .identifier =>
      if startsWith .leftParen rest then
        let arguments := (arguments (rest.drop 1)).past 1
        let close := expect finish .rightParen (rest.drop arguments.used)
        ((arguments.andThen close).as (.call t.text arguments.value t.line)).past 1
      else if startsWith .leftBracket rest then
        let index := (expression (rest.drop 1)).past 1
        let close := expect finish .rightBracket (rest.drop index.used)
        ((index.andThen close).as (.element t.text index.value t.line)).past 1
      else ⟨.identifier t.text t.line, 1, []⟩
    | .keyword .not =>
      let operand := factor rest
      (operand.as (.unary "not" operand.value t.line)).past 1
    | .leftParen =>
      let inner := expression rest
      let close := expect finish .rightParen (rest.drop inner.used)
      ((inner.andThen close).as inner.value).past 1
    | kind =>
      let skipped := if isStructural kind then 0 else 1
      ((refuse finish .factor (t :: rest)).as (.placeholder t.text t.line)).past skipped
termination_by 5 * tokens.length
decreasing_by all_goals (try simp only [List.length_drop, List.length_cons]); omega

/-- The arguments of a call, up to its closing parenthesis. -/
def arguments (tokens : List Token) : Step (List Expr) :=
  if startsWith .rightParen tokens then ⟨[], 0, []⟩
  else
    let first := expression tokens
    let more := moreArguments (tokens.drop first.used)
    (first.andThen more).as (first.value :: more.value)
termination_by 5 * tokens.length + 4
decreasing_by all_goals (try simp only [List.length_drop]); omega

/-- The arguments that follow the first one. -/
def moreArguments (tokens : List Token) : Step (List Expr) :=
  match tokens with
  | [] => ⟨[], 0, []⟩
  | t :: rest =>
    if t.kind = .comma then
      let argument := expression rest
      let more := moreArguments (rest.drop argument.used)
      ((argument.andThen more).as (argument.value :: more.value)).past 1
    else ⟨[], 0, []⟩
termination_by 5 * tokens.length
decreasing_by all_goals (try simp only [List.length_drop, List.length_cons]); omega

end

end Grammar
end PascalCheck
