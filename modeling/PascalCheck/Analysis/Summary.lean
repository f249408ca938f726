import PascalCheck.Analysis.Statement
import PascalCheck.Scope.View

/-! Analysis of a whole program: the walk, and then what only the symbols of the whole run show. -/
namespace PascalCheck
namespace Analysis

/-- Reports the names of groups of symbols, on the line of the first one. -/
def reportGroups (finding : Symbol → List Symbol → Finding) : List NameGroup → Analysis Unit
  | [] => pure ()
  | group :: rest => do
    match group.members.map (·.1) with
    | [] => pure ()
    | first :: more => report first.line (finding first (first :: more))
    reportGroups finding rest

/-- Reports variables that nothing uses. -/
def reportUnused : List NumberedSymbol → Analysis Unit
  | [] => pure ()
  | s :: rest => do
    report s.1.line (.unused s.1.name s.1.line)
    reportUnused rest

/-- Reports names that are declared more than once, names that are declared with different types,
and unused variables. -/
def summarize : Analysis Unit := do
  let table := (← get).table
  reportGroups .shadowing table.ambiguities
  reportGroups .typeAmbiguity table.typeAmbiguities
  reportUnused table.unused

/-- Analyses a program. -/
def program (catalogue : Catalogue) (p : Program) : Analysis Unit := do
  walk catalogue p.toNode
  summarize

/-- The state after the analysis of a program. -/
def run (catalogue : Catalogue) (p : Program) : Except Fault AnalysisState := do
  let ((), state) ← StateT.run (program catalogue p) {}
  return state

end Analysis

namespace AnalysisState

/-- The diagnostics of the findings, in order. -/
def diagnostics (state : AnalysisState) : List Diagnostic :=
  state.findings.toList.map LocatedFinding.diagnostic

end AnalysisState
end PascalCheck
