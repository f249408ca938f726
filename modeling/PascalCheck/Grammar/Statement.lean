import PascalCheck.Grammar.Expression

/-! Reading of statements. Statements of a list are separated by semicolons; the list ends before
`end`, `until` or the end of the tokens, which are left to the enclosing rule. -/
namespace PascalCheck
namespace Grammar

/-- The tokens before which a list of statements ends. -/
def closesStatements : TokenKind → Bool
  | .keyword .end | .keyword .until | .endOfInput => true
  | _ => false

variable (finish : EndMark)

/-- An assignment to a variable or an element of an array, after its name. -/
def assignment (name : Token) (rest : List Token) : Step Node :=
  let index :=
    if startsWith .leftBracket rest then
      let index := (expression finish (rest.drop 1)).past 1
      (index.andThen (expect finish .rightBracket (rest.drop index.used))).as index.value
    else ⟨.absent, 0, []⟩
  let becomes := index.andThen (expect finish .assign (rest.drop index.used))
  let value := expression finish (rest.drop becomes.used)
  (becomes.andThen value).as (.assignment name.text value.value index.value name.line)

/-- A call of a procedure, after its name. -/
def procedureCall (name : Token) (rest : List Token) : Step Node :=
  if startsWith .leftParen rest then
    let arguments := (arguments finish (rest.drop 1)).past 1
    let close := expect finish .rightParen (rest.drop arguments.used)
    (arguments.andThen close).as (.call name.text arguments.value name.line)
  else ⟨.call name.text [] name.line, 0, []⟩

/-- An expression after a colon, if there is a colon. -/
def format (tokens : List Token) : Step Expr :=
  if startsWith .colon tokens then (expression finish (tokens.drop 1)).past 1
  else ⟨.absent, 0, []⟩

/-- A value to write, with its width and then its decimals after colons. -/
def writeArgument (tokens : List Token) : Step WriteArgument :=
  let value := expression finish tokens
  if startsWith .colon (tokens.drop value.used) then
    let width := value.andThen (format finish (tokens.drop value.used))
    let decimals := width.andThen (format finish (tokens.drop width.used))
    decimals.as ⟨value.value, width.value, decimals.value⟩
  else value.as ⟨value.value, .absent, .absent⟩

/-- The values to write that follow the first one. -/
def moreWriteArguments (tokens : List Token) : Step (List WriteArgument) :=
  match tokens with
  | [] => ⟨[], 0, []⟩
  | t :: rest =>
    if t.kind = .comma then
      let argument := writeArgument finish rest
      let more := moreWriteArguments (rest.drop argument.used)
      ((argument.andThen more).as (argument.value :: more.value)).past 1
    else ⟨[], 0, []⟩
termination_by tokens.length
decreasing_by simp only [List.length_drop, List.length_cons]; omega

/-- A statement that writes, after its word. -/
def writeStatement (word : Token) (rest : List Token) : Step Node :=
  if startsWith .leftParen rest then
    let listed :=
      if startsWith .rightParen (rest.drop 1) then ⟨[], 1, []⟩
      else
        let first := (writeArgument finish (rest.drop 1)).past 1
        let more := moreWriteArguments finish (rest.drop first.used)
        (first.andThen more).as (first.value :: more.value)
    let close := expect finish .rightParen (rest.drop listed.used)
    (listed.andThen close).as (.write word.text listed.value word.line)
  else ⟨.write word.text [] word.line, 0, []⟩

/-- A variable or an element of an array to read into; none where there is no name. -/
def target (tokens : List Token) : Step (List Target) :=
  let name := expect finish .identifier tokens
  match name.value with
  | none => name.as []
  | some t =>
    let rest := tokens.drop name.used
    if startsWith .leftBracket rest then
      let index := (expression finish (rest.drop 1)).past 1
      let close := expect finish .rightBracket (rest.drop index.used)
      (name.andThen (index.andThen close)).as [.element t.text index.value t.line]
    else name.as [.name t.text t.line]

/-- The places to read into that follow the first one. -/
def moreTargets (tokens : List Token) : Step (List Target) :=
  match tokens with
  | [] => ⟨[], 0, []⟩
  | t :: rest =>
    if t.kind = .comma then
      let one := target finish rest
      let more := moreTargets (rest.drop one.used)
      ((one.andThen more).as (one.value ++ more.value)).past 1
    else ⟨[], 0, []⟩
termination_by tokens.length
decreasing_by simp only [List.length_drop, List.length_cons]; omega

/-- A statement that reads, after its word. -/
def readStatement (word : Token) (rest : List Token) : Step Node :=
  if startsWith .leftParen rest then
    let listed :=
      if startsWith .rightParen (rest.drop 1) then ⟨[], 1, []⟩
      else
        let first := (target finish (rest.drop 1)).past 1
        let more := moreTargets finish (rest.drop first.used)
        (first.andThen more).as (first.value ++ more.value)
    let close := expect finish .rightParen (rest.drop listed.used)
    (listed.andThen close).as (.read word.text listed.value word.line)
  else ⟨.read word.text [] word.line, 0, []⟩

/-- What stands between a statement and the next one of its list: a semicolon. -/
def separator (tokens : List Token) : Step Unit :=
  if startsWith .semicolon tokens then ⟨(), 1, []⟩
  else if closesStatements (next finish tokens).kind then ⟨(), 0, []⟩
  else refuse finish .separator tokens

/-- The direction in which a counter runs; upward where none is given. -/
def direction (tokens : List Token) : Step Bool :=
  if startsWith (.keyword .downto) tokens then ⟨true, 1, []⟩
  else if startsWith (.keyword .to) tokens then ⟨false, 1, []⟩
  else (refuse finish .direction tokens).as false

/-- The value at which a counter stops; absent right before `do`. -/
def bound (tokens : List Token) : Step Expr :=
  if startsWith (.keyword .do) tokens then ⟨.absent, 0, []⟩ else expression finish tokens

mutual

/-- A statement, absent where the next token separates or closes statements. -/
def statement (tokens : List Token) : Step Node :=
  match tokens with
  | [] => ⟨.absent, 0, []⟩
  | t :: rest =>
    if t.kind = .semicolon ∨ closesStatements t.kind then ⟨.absent, 0, []⟩
    else (statementFrom t rest).past 1
termination_by 3 * tokens.length
decreasing_by simp only [List.length_cons]; omega

/-- A statement after its first token. A token with which no statement begins is passed over. -/
def statementFrom (first : Token) (rest : List Token) : Step Node :=
  match first.kind with
  | .identifier =>
    if startsWith .leftBracket rest || startsWith .assign rest then assignment finish first rest
    else procedureCall finish first rest
  | .keyword .if => ifStatement first.line rest
  | .keyword .while => whileStatement first.line rest
  | .keyword .for => forStatement first.line rest
  | .keyword .repeat => repeatStatement first.line rest
  | .keyword .write | .keyword .writeln => writeStatement finish first rest
  | .keyword .read | .keyword .readln => readStatement finish first rest
  | .keyword .begin =>
    let inner := block rest
    inner.as (.block inner.value first.line)
  | _ => ⟨.absent, 0, [⟨.statement, first⟩]⟩
termination_by 3 * rest.length + 2

/-- A conditional statement after `if`. -/
def ifStatement (line : Int) (rest : List Token) : Step Node :=
  let condition := expression finish rest
  let head := condition.andThen (expect finish (.keyword .then) (rest.drop condition.used))
  let thenBranch :=
    if startsWith (.keyword .else) (rest.drop head.used) then ⟨.absent, 0, []⟩
    else statement (rest.drop head.used)
  let upper := head.andThen thenBranch
  if startsWith (.keyword .else) (rest.drop upper.used) then
    let elseBranch := (statement (rest.drop (upper.used + 1))).past 1
    (upper.andThen elseBranch).as
      (.ifThen condition.value thenBranch.value elseBranch.value line)
  else upper.as (.ifThen condition.value thenBranch.value .absent line)
termination_by 3 * rest.length + 1
decreasing_by all_goals (try simp only [List.length_drop]); omega

/-- A loop with its condition in front, after `while`. -/
def whileStatement (line : Int) (rest : List Token) : Step Node :=
  let condition := expression finish rest
  let head := condition.andThen (expect finish (.keyword .do) (rest.drop condition.used))
  let body := statement (rest.drop head.used)
  (head.andThen body).as (.whileDo condition.value body.value line)
termination_by 3 * rest.length + 1
decreasing_by simp only [List.length_drop]; omega

/-- A loop with a counter, after `for`. -/
def forStatement (line : Int) (rest : List Token) : Step Node :=
  let counter := expect finish .identifier rest
  let becomes := counter.andThen (expect finish .assign (rest.drop counter.used))
  let start := becomes.andThen (expression finish (rest.drop becomes.used))
  let direction := start.andThen (direction finish (rest.drop start.used))
  let bound := direction.andThen (bound finish (rest.drop direction.used))
  let head := bound.andThen (expect finish (.keyword .do) (rest.drop bound.used))
  let body := statement (rest.drop head.used)
  (head.andThen body).as
    (.forDo (nameOr "" counter.value) start.value bound.value direction.value body.value line)
termination_by 3 * rest.length + 1
decreasing_by simp only [List.length_drop]; omega

/-- A loop with its condition at the end, after `repeat`. -/
def repeatStatement (line : Int) (rest : List Token) : Step Node :=
  let body := statements rest
  let foot := body.andThen (expect finish (.keyword .until) (rest.drop body.used))
  let condition := expression finish (rest.drop foot.used)
  (foot.andThen condition).as (.repeatUntil body.value condition.value line)
termination_by 3 * rest.length + 1

/-- The statements of a block, after `begin`. -/
def block (rest : List Token) : Step (List Node) :=
  let body := statements rest
  (body.andThen (expect finish (.keyword .end) (rest.drop body.used))).as body.value
termination_by 3 * rest.length + 1

/-- A list of statements. Empty statements leave no trace. -/
def statements (tokens : List Token) : Step (List Node) :=
  match tokens with
  | [] => ⟨[], 0, []⟩
  | t :: rest =>
    if closesStatements t.kind then ⟨[], 0, []⟩
    else if t.kind = .semicolon then (statements rest).past 1
    else
      let first := statementFrom t rest
      let separated := first.andThen (separator finish (rest.drop first.used))
      let more := statements (rest.drop separated.used)
      ((separated.andThen more).as
        (if first.value.isAbsent then more.value else first.value :: more.value)).past 1
termination_by 3 * tokens.length
decreasing_by all_goals (try simp only [List.length_drop, List.length_cons]); omega

end

/-- The statements of a program or routine, between `begin` and `end`. -/
def body (tokens : List Token) : Step Body :=
  let line := (next finish tokens).line
  let opened := expect finish (.keyword .begin) tokens
  let inner := opened.andThen (block finish (tokens.drop opened.used))
  inner.as (.block inner.value line)

end Grammar
end PascalCheck
