import PascalCheck.Grammar.Declaration

/-! Reading of programs. Type definitions and units are passed over. -/
namespace PascalCheck
namespace Grammar

/-- The tokens before which a section of type definitions ends. -/
def endsTypeSection : TokenKind → Bool
  | .keyword .var | .keyword .begin | .keyword .function | .keyword .procedure
  | .keyword .const | .keyword .type | .endOfInput => true
  | _ => false

variable (finish : EndMark)

/-- The file names that follow the first one in the heading of a program. -/
def moreFiles (tokens : List Token) : Step Unit :=
  match tokens with
  | [] => ⟨(), 0, []⟩
  | t :: rest =>
    if t.kind = .comma then
      let name := accept .identifier rest
      (name.andThen (moreFiles (rest.drop name.used))).past 1
    else ⟨(), 0, []⟩
termination_by tokens.length
decreasing_by simp only [List.length_drop, List.length_cons]; omega

/-- The file names in the heading of a program, in parentheses if it has any. -/
def files (tokens : List Token) : Step Unit :=
  if startsWith .leftParen tokens then
    let first := (accept .identifier (tokens.drop 1)).past 1
    let listed := first.andThen (moreFiles (tokens.drop first.used))
    (listed.andThen (expect finish .rightParen (tokens.drop listed.used))).as ()
  else ⟨(), 0, []⟩

/-- The heading of a program, and the name it gives. -/
def heading (tokens : List Token) : Step String :=
  if startsWith (.keyword .program) tokens then
    let name := (expect finish .identifier (tokens.drop 1)).past 1
    let listed := name.andThen (files finish (tokens.drop name.used))
    let close := expect finish .semicolon (tokens.drop listed.used)
    (listed.andThen close).as (nameOr "unknown" name.value)
  else ⟨"anonymous", 0, []⟩

/-- The units that a program uses. -/
def units (tokens : List Token) : Step Unit :=
  if startsWith (.keyword .uses) tokens then
    let isUnit (t : Token) := t.kind != .semicolon && t.kind != .endOfInput
    let count := 1 + ((tokens.drop 1).takeWhile isUnit).length
    ((accept .semicolon (tokens.drop count)).as ()).past count
  else ⟨(), 0, []⟩

/-- The declarations of a program, in order. -/
def declarations (tokens : List Token) : Step (List Node) :=
  match tokens with
  | [] => ⟨[], 0, []⟩
  | t :: rest =>
    match t.kind with
    | .keyword .const =>
      let one := constSection finish rest
      let more := declarations (rest.drop one.used)
      ((one.andThen more).as (.constSection one.value t.line :: more.value)).past 1
    | .keyword .type =>
      let count := (rest.takeWhile fun t => !endsTypeSection t.kind).length
      (declarations (rest.drop count)).past (1 + count)
    | .keyword .var =>
      let one := varSection finish rest
      let more := declarations (rest.drop one.used)
      ((one.andThen more).as (.varSection one.value t.line :: more.value)).past 1
    | .keyword .function =>
      let one := functionDeclaration finish t.line rest
      let more := declarations (rest.drop one.used)
      ((one.andThen more).as (one.value :: more.value)).past 1
    | .keyword .procedure =>
      let one := procedureDeclaration finish t.line rest
      let more := declarations (rest.drop one.used)
      ((one.andThen more).as (one.value :: more.value)).past 1
    | _ => ⟨[], 0, []⟩
termination_by tokens.length
decreasing_by all_goals (try simp only [List.length_drop, List.length_cons]); omega

/-- A program. -/
def program (tokens : List Token) : Step Program :=
  let heading := heading finish tokens
  let units := heading.andThen (units (tokens.drop heading.used))
  let declared := units.andThen (declarations finish (tokens.drop units.used))
  let body := declared.andThen (body finish (tokens.drop declared.used))
  let close := accept .dot (tokens.drop body.used)
  (body.andThen close).as
    ⟨heading.value, declared.value, body.value, (next finish tokens).line⟩

/-- The tokens before the end mark, and the mark. Where the last token is none, a mark is added on
that token's line. -/
def delimit (tokens : List Token) : List Token × EndMark :=
  match tokens.getLast? with
  | none => ([], ⟨"", 0, 1, 1⟩)
  | some t =>
    if t.kind = .endOfInput then (tokens.dropLast, ⟨t.text, t.start, t.line, t.column⟩)
    else (tokens, ⟨"", 0, t.line, 1⟩)

/-- Reads a program from all tokens of a source. -/
def parse (tokens : List Token) : Step Program :=
  let delimited := delimit tokens
  program delimited.2 delimited.1

end Grammar
end PascalCheck
