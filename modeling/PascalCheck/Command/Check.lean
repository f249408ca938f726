import PascalCheck.Check.Outcome
import PascalCheck.Command.Arguments
import PascalCheck.Command.Transcript
import PascalCheck.Scope.View
import PascalCheck.Tree.Outline

/-! The command that checks files and reports on each of them. -/
namespace PascalCheck
namespace Command

/-- The lines of the log, if they are asked for. -/
def logged (arguments : Arguments) (log : List LogLine) : List String :=
  if arguments.verbose then log.map LogLine.render else []

/-- The routines that are known to a command, or what could not be loaded of the further ones it
is given. -/
def builtins (arguments : Arguments) (files : FileTree) : Except Fault Loaded := do
  let standard := Loader.loadStandard {}
  if arguments.builtins = "" then return ⟨standard, 0, []⟩
  else standard.loadFile files (.ofText arguments.builtins)

/-- Runs a command with the routines it is given; not at all if some could not be loaded. -/
def withBuiltins (arguments : Arguments) (files : FileTree)
    (command : Catalogue → Except Fault Transcript) : Except Fault Transcript := do
  let loaded ← builtins arguments files
  let log := logged arguments loaded.log
  match loaded.loader.errors with
  | [] => return (← command loaded.loader.catalogue).after [] log
  | errors => return ⟨2, [], log ++ errors.map fun error => "❌ " ++ error.message⟩

/-- The headings of the table of symbols. -/
def symbolHeading : String :=
  " ".intercalate
    [Text.padRight 16 "name", Text.padRight 10 "type", Text.padRight 18 "scope",
     Text.padLeft 4 "line" ++ " ", Text.padRight 5 "init", Text.padRight 13 "category", "uses"]

/-- A row of the table of symbols. -/
def symbolRow (symbol : Symbol) : String :=
  " ".intercalate
    [Text.padRight 16 symbol.name, Text.padRight 10 symbol.ty.name, Text.padRight 18 symbol.scope,
     Text.padLeft 4 (toString symbol.line) ++ " ",
     Text.padRight 5 (if symbol.initialized then "yes" else "no"),
     Text.padRight 13 symbol.category.label, toString symbol.uses]

/-- The outline of the program, if it is asked for and there is one. -/
def outlineLines (arguments : Arguments) (outcome : Outcome) : List String :=
  match outcome.program with
  | some program => if arguments.ast then [program.outline.render] else []
  | none => []

/-- The table of symbols, if it is asked for and there is one. -/
def symbolLines (arguments : Arguments) (outcome : Outcome) : List String :=
  if arguments.symbols ∧ outcome.table.isSome then
    symbolHeading :: outcome.symbols.map symbolRow ++ [""]
  else []

/-- The last word on a file. -/
def verdict (outcome : Outcome) : String :=
  if outcome.bag.hasErrors then "✗ compilation failed"
  else if outcome.bag.isEmpty then "✓ compiled successfully"
  else "△ compiled with warnings"

/-- The lines on a file. -/
def fileLines (arguments : Arguments) (outcome : Outcome) : List String :=
  s!"── {outcome.sourceName} ({outcome.tokenCount} tokens)" ::
    outlineLines arguments outcome ++ symbolLines arguments outcome ++
    [outcome.bag.report, verdict outcome, ""]

/-- Checks files, in order. The status is one if any of them has errors. -/
def checkFiles (arguments : Arguments) (files : FileTree) (catalogue : Catalogue) :
    List String → Except Fault Transcript
  | [] => .ok {}
  | file :: rest => do
    let outcome ← Outcome.ofFile catalogue files (.ofText file)
    let others ← checkFiles arguments files catalogue rest
    let status := if outcome.bag.hasErrors then 1 else others.status
    return { others with status }.after (fileLines arguments outcome)
      (logged arguments outcome.log)

/-- The command that checks files. -/
def check (arguments : Arguments) (files : FileTree) : Except Fault Transcript :=
  withBuiltins arguments files fun catalogue =>
    checkFiles arguments files catalogue arguments.files

end Command
end PascalCheck
