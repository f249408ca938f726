import PascalCheck.Grammar.Statement
import PascalCheck.Text.Case

/-! Reading of declarations: constants, variables, functions and procedures. -/
namespace PascalCheck
namespace Grammar

variable (finish : EndMark)

/-- A name in a list of names; none where there is no name. -/
def declaredName (tokens : List Token) : Step (List DeclaredName) :=
  let name := expect finish .identifier tokens
  name.as (name.value.toList.map fun t => ⟨t.text, t.line⟩)

/-- The names that follow the first one. -/
def moreNames (tokens : List Token) : Step (List DeclaredName) :=
  match tokens with
  | [] => ⟨[], 0, []⟩
  | t :: rest =>
    if t.kind = .comma then
      let one := declaredName finish rest
      let more := moreNames (rest.drop one.used)
      ((one.andThen more).as (one.value ++ more.value)).past 1
    else ⟨[], 0, []⟩
termination_by tokens.length
decreasing_by simp only [List.length_drop, List.length_cons]; omega

/-- Names that are declared together. -/
def nameList (tokens : List Token) : Step (List DeclaredName) :=
  let first := declaredName finish tokens
  let more := moreNames finish (tokens.drop first.used)
  (first.andThen more).as (first.value ++ more.value)

/-- Passes over bounds, up to the closing bracket. -/
def bounds (tokens : List Token) : Step Unit :=
  let isInside (t : Token) := t.kind != .rightBracket && t.kind != .endOfInput
  ⟨(), (tokens.takeWhile isInside).length, []⟩

/-- The token names a type. -/
def namesType : TokenKind → Bool
  | .identifier => true
  | .keyword word => word.namesType
  | _ => false

/-- A type name; a string may have a length in brackets, of which nothing is kept. -/
def typeName (tokens : List Token) : Step TypeSpec :=
  match tokens with
  | [] => (refuse finish .typeName []).as {}
  | t :: rest =>
    if namesType t.kind then
      let name := Text.lower t.text
      if name = "string" ∧ startsWith .leftBracket rest then
        let length := (bounds (rest.drop 1)).past 1
        let close := accept .rightBracket (rest.drop length.used)
        ((length.andThen close).as ⟨name, false⟩).past 1
      else ⟨⟨name, false⟩, 1, []⟩
    else (refuse finish .typeName (t :: rest)).as {}

/-- A type; of an array, only the element type is kept. -/
def typeSpec (tokens : List Token) : Step TypeSpec :=
  match tokens with
  | [] => typeName finish []
  | t :: rest =>
    if t.kind = .keyword .array then
      let opened := expect finish .leftBracket rest
      let inside := opened.andThen (bounds (rest.drop opened.used))
      let closed := inside.andThen (expect finish .rightBracket (rest.drop inside.used))
      let head := closed.andThen (expect finish (.keyword .of) (rest.drop closed.used))
      let element := typeSpec (rest.drop head.used)
      ((head.andThen element).as ⟨element.value.name, true⟩).past 1
    else typeName finish (t :: rest)
termination_by tokens.length
decreasing_by simp only [List.length_drop, List.length_cons]; omega

/-- The sign between a constant and its value. -/
def equalsSign (tokens : List Token) : Step Unit :=
  match tokens with
  | [] => refuse finish .equals []
  | t :: rest =>
    if t.kind = .relation ∧ t.text = "=" then ⟨(), 1, []⟩ else refuse finish .equals (t :: rest)

/-- The constants of a section, after `const`. -/
def constSection (tokens : List Token) : Step (List ConstDeclaration) :=
  match tokens with
  | [] => ⟨[], 0, []⟩
  | name :: rest =>
    if name.kind = .identifier then
      let equals := equalsSign finish rest
      let value := equals.andThen (expression finish (rest.drop equals.used))
      let closed := value.andThen (expect finish .semicolon (rest.drop value.used))
      let more := constSection (rest.drop closed.used)
      ((closed.andThen more).as (⟨name.text, value.value, name.line⟩ :: more.value)).past 1
    else ⟨[], 0, []⟩
termination_by tokens.length
decreasing_by simp only [List.length_drop, List.length_cons]; omega

/-- Variables of one type. -/
def varDeclaration (tokens : List Token) : Step VarDeclaration :=
  let names := nameList finish tokens
  let colon := names.andThen (expect finish .colon (tokens.drop names.used))
  let type := typeSpec finish (tokens.drop colon.used)
  (colon.andThen type).as ⟨names.value, type.value, (next finish tokens).line⟩

/-- A name list that begins with a name uses it. -/
theorem one_le_used_varDeclaration (t : Token) (rest : List Token) (h : t.kind = .identifier) :
    1 ≤ (varDeclaration finish (t :: rest)).used := by
  have hname : 1 ≤ (nameList finish (t :: rest)).used := by
    simp [nameList, declaredName, expect, h]
  simp only [varDeclaration, Step.as_used, Step.andThen_used]
  omega

/-- The variables of a section, after `var`. -/
def varSection (tokens : List Token) : Step (List VarDeclaration) :=
  match tokens with
  | [] => ⟨[], 0, []⟩
  | t :: rest =>
    if t.kind = .identifier then
      let one := varDeclaration finish (t :: rest)
      let closed := one.andThen (expect finish .semicolon ((t :: rest).drop one.used))
      let more := varSection ((t :: rest).drop closed.used)
      (closed.andThen more).as (one.value :: more.value)
    else ⟨[], 0, []⟩
termination_by tokens.length
decreasing_by
  have := one_le_used_varDeclaration finish t rest ‹_›
  simp only [List.length_drop, List.length_cons, Step.andThen_used]
  omega

/-- The sections of constants and variables inside a routine. -/
def localSections (tokens : List Token) : Step (List Node) :=
  match tokens with
  | [] => ⟨[], 0, []⟩
  | t :: rest =>
    if t.kind = .keyword .var then
      let one := varSection finish rest
      let more := localSections (rest.drop one.used)
      ((one.andThen more).as (.varSection one.value t.line :: more.value)).past 1
    else if t.kind = .keyword .const then
      let one := constSection finish rest
      let more := localSections (rest.drop one.used)
      ((one.andThen more).as (.constSection one.value t.line :: more.value)).past 1
    else ⟨[], 0, []⟩
termination_by tokens.length
decreasing_by all_goals (try simp only [List.length_drop, List.length_cons]); omega

/-- The word that says how parameters are passed. -/
def modifier (tokens : List Token) : Step (Option String) :=
  match tokens with
  | [] => ⟨none, 0, []⟩
  | t :: _ =>
    if t.kind = .keyword .var ∨ t.kind = .keyword .const then ⟨some t.text, 1, []⟩
    else ⟨none, 0, []⟩

/-- Parameters of one type. -/
def parameterGroup (tokens : List Token) : Step (List Parameter) :=
  let modifier := modifier tokens
  let names := modifier.andThen (nameList finish (tokens.drop modifier.used))
  let colon := names.andThen (expect finish .colon (tokens.drop names.used))
  let type := typeSpec finish (tokens.drop colon.used)
  (colon.andThen type).as
    (names.value.map fun name => ⟨name.name, type.value, modifier.value, name.line⟩)

/-- The groups of parameters that follow the first one. -/
def moreParameters (tokens : List Token) : Step (List Parameter) :=
  match tokens with
  | [] => ⟨[], 0, []⟩
  | t :: rest =>
    if t.kind = .semicolon then
      let group := parameterGroup finish rest
      let more := moreParameters (rest.drop group.used)
      ((group.andThen more).as (group.value ++ more.value)).past 1
    else ⟨[], 0, []⟩
termination_by tokens.length
decreasing_by simp only [List.length_drop, List.length_cons]; omega

/-- The parameters of a routine, in parentheses if it has any. -/
def parameters (tokens : List Token) : Step (List Parameter) :=
  if startsWith .leftParen tokens then
    let listed :=
      if startsWith .rightParen (tokens.drop 1) then ⟨[], 1, []⟩
      else
        let first := (parameterGroup finish (tokens.drop 1)).past 1
        let more := moreParameters finish (tokens.drop first.used)
        (first.andThen more).as (first.value ++ more.value)
    (listed.andThen (expect finish .rightParen (tokens.drop listed.used))).as listed.value
  else ⟨[], 0, []⟩

/-- A function after its word. -/
def functionDeclaration (line : Int) (rest : List Token) : Step Node :=
  let name := expect finish .identifier rest
  let formals := name.andThen (parameters finish (rest.drop name.used))
  let colon := formals.andThen (expect finish .colon (rest.drop formals.used))
  let result := colon.andThen (typeSpec finish (rest.drop colon.used))
  let head := result.andThen (expect finish .semicolon (rest.drop result.used))
  let sections := head.andThen (localSections finish (rest.drop head.used))
  let body := sections.andThen (body finish (rest.drop sections.used))
  let close := expect finish .semicolon (rest.drop body.used)
  (body.andThen close).as
    (.function (nameOr "unknown" name.value) formals.value result.value sections.value body.value
      line)

/-- A procedure after its word. -/
def procedureDeclaration (line : Int) (rest : List Token) : Step Node :=
  let name := expect finish .identifier rest
  let formals := name.andThen (parameters finish (rest.drop name.used))
  let head := formals.andThen (expect finish .semicolon (rest.drop formals.used))
  let sections := head.andThen (localSections finish (rest.drop head.used))
  let body := sections.andThen (body finish (rest.drop sections.used))
  let close := expect finish .semicolon (rest.drop body.used)
  (body.andThen close).as
    (.procedure (nameOr "unknown" name.value) formals.value sections.value body.value line)

end Grammar
end PascalCheck
