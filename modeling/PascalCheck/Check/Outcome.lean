import PascalCheck.Analysis.Summary
import PascalCheck.Builtin.Loader
import PascalCheck.Check.Log
import PascalCheck.Diagnostic.Bag
import PascalCheck.Files.Tree
import PascalCheck.Grammar.Program
import PascalCheck.Token.Lexing

/-! The check of a source: its tokens, its syntax tree, and the analysis of the tree. Every phase
takes place even if an earlier one found errors. -/
namespace PascalCheck

/-- What a check gives. A source that cannot be read has no tree and no symbols. -/
structure Outcome where
  sourceName : String
  bag : Bag
  program : Option Program := none
  table : Option ScopeTable := none
  /-- The number of tokens without the end mark. -/
  tokenCount : Nat := 0
  log : List LogLine := []

namespace Outcome

def symbols (outcome : Outcome) : List Symbol :=
  match outcome.table with
  | some table => table.symbols.toList
  | none => []

/-- The source was read, and no errors were found. -/
def success (outcome : Outcome) : Bool :=
  outcome.program.isSome && !outcome.bag.hasErrors

/-- Checks the text of a source. -/
def ofSource (catalogue : Catalogue) (name source : String) : Except Fault Outcome := do
  let lexed := Lexed.ofSource source
  let count := lexed.lexemes.length
  let parsed := Grammar.parse lexed.tokens
  let early := lexed.diagnostics ++ parsed.faults.map GrammarFault.diagnostic
  let state ← Analysis.run catalogue parsed.value
  let bag : Bag := ⟨early ++ state.diagnostics⟩
  let before :=
    [LogLine.tokenized count lexed.finish.line, LogLine.lexed name count,
      LogLine.programRead parsed.value.name parsed.value.declarations.length,
      LogLine.parsed name early.length]
  let after :=
    [LogLine.analyzed state.table.symbols.size bag.size,
      LogLine.finished name bag.errors.length bag.warnings.length]
  return {
    sourceName := name
    bag
    program := some parsed.value
    table := some state.table
    tokenCount := count
    log := before ++ state.events.toList.filterMap LogLine.ofEvent? ++ after }

/-- What the check of a file that is not there gives. -/
def missing (path : Path) : Outcome :=
  { sourceName := path.render
    bag := ⟨[.of .error .semantic s!"File not found: {path.render}" {} ""]⟩ }

/-- Checks a file. -/
def ofFile (catalogue : Catalogue) (files : FileTree) (path : Path) : Except Fault Outcome := do
  match ← files.readText path with
  | none => return missing path
  | some text => ofSource catalogue path.render (String.ofList text)

end Outcome

/-- What the loading of a file of declarations gives. -/
structure Loaded where
  loader : Loader
  count : Nat
  log : List LogLine

namespace Loader

/-- Loads a file of declarations, and counts the routines loaded. -/
def loadFile (loader : Loader) (files : FileTree) (path : Path) : Except Fault Loaded := do
  match ← files.readText path with
  | none => return ⟨loader.reject (.missingFile path.render), 0, []⟩
  | some text =>
    let loaded := loader.loadText path.render text
    return ⟨loaded.1, loaded.2, [LogLine.builtinsLoaded loaded.2 path.render]⟩

end Loader
end PascalCheck
