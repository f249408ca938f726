import PascalCheck.Analysis.State
import PascalCheck.Text.Column
import PascalCheck.Text.Quoted

/-! The log of a run: what each part of it did, for those who look for faults in the checker. -/
namespace PascalCheck

/-- A line of the log, and the part of the checker that it is about. -/
structure LogLine where
  channel : String
  message : String
  deriving DecidableEq

namespace LogLine

def render (line : LogLine) : String :=
  let level := Text.padRight 7 "DEBUG"
  s!"{level} {line.channel}: {line.message}"

def tokenized (tokens lines : Nat) : LogLine :=
  ⟨"pascalcc.lexer", s!"tokenized {tokens} token(s) over {lines} line(s)"⟩

def lexed (source : String) (tokens : Nat) : LogLine :=
  ⟨"pascalcc.pipeline", s!"{source}: lexing done, {tokens} token(s)"⟩

def programRead (name : String) (sections : Nat) : LogLine :=
  let quoted := Text.quoted name
  ⟨"pascalcc.tree.parser", s!"parsed program {quoted}: {sections} declaration section(s)"⟩

def parsed (source : String) (diagnostics : Nat) : LogLine :=
  ⟨"pascalcc.pipeline", s!"{source}: parsing done, {diagnostics} diagnostic(s) so far"⟩

/-- What happened to the scopes; a declaration that failed leaves no line. -/
def ofEvent? : ScopeEvent → Option LogLine
  | .opened scope depth => some ⟨"pascalcc.semantic.symbol", s!"enter scope {scope} (depth {depth})"⟩
  | .closed scope symbols _ _ =>
    some ⟨"pascalcc.semantic.symbol", s!"leave scope {scope} ({symbols} symbol(s))"⟩
  | .declared name ty scope line true =>
    let quoted := Text.quoted name
    some ⟨"pascalcc.semantic.symbol", s!"declare {quoted}: {ty.name} in {scope} (line {line})"⟩
  | .declared _ _ _ _ false => none

def analyzed (symbols diagnostics : Nat) : LogLine :=
  ⟨"pascalcc.semantic.analyzer",
    s!"semantic analysis done: {symbols} symbol(s), {diagnostics} diagnostic(s)"⟩

def finished (source : String) (errors warnings : Nat) : LogLine :=
  ⟨"pascalcc.pipeline", s!"{source}: analysis done, {errors} error(s), {warnings} warning(s)"⟩

def builtinsLoaded (count : Nat) (path : String) : LogLine :=
  ⟨"pascalcc.semantic.builtins", s!"loaded {count} built-in routine(s) from {path}"⟩

end LogLine
end PascalCheck
