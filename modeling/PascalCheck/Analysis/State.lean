import PascalCheck.Analysis.Finding
import PascalCheck.Builtin.Basic
import PascalCheck.Fault

/-! The state of an analysis, and the steps that change it: reports, scopes, declarations, and the
protection of loop counters. -/
namespace PascalCheck

/-- A routine that the program declares; procedures have no result. -/
structure DeclaredRoutine where
  name : String
  result : Option Ty
  parameters : Nat
  line : Int
  deriving DecidableEq

namespace DeclaredRoutine

def kind (routine : DeclaredRoutine) : RoutineKind :=
  if routine.result.isSome then .function else .procedure

/-- The name in lower case. -/
def key (routine : DeclaredRoutine) : String :=
  Text.lower routine.name

/-- The routines with one more; one of the same name, in any letter case, gives way to it. -/
def insert (routine : DeclaredRoutine) : List DeclaredRoutine → List DeclaredRoutine
  | [] => [routine]
  | other :: rest =>
    if other.key = routine.key then routine :: rest else other :: insert routine rest

end DeclaredRoutine

/-- Something that happened to the scopes of a run. -/
inductive ScopeEvent where
  | opened (scope : String) (depth : Nat)
  /-- A scope was closed: its name and its number of symbols, and then the scope that is innermost
  and the depth after it. -/
  | closed (scope : String) (symbols : Nat) (current : String) (depth : Nat)
  /-- A declaration was attempted in a scope, with or without success. -/
  | declared (name : String) (ty : Ty) (scope : String) (line : Int) (success : Bool)
  deriving DecidableEq

/-- The state of an analysis. -/
structure AnalysisState where
  table : ScopeTable := .empty
  /-- The declared routines, in the order in which their names were first declared. -/
  routines : List DeclaredRoutine := []
  /-- The counters, in lower case, of the loops being walked. -/
  counters : List String := []
  findings : Array LocatedFinding := #[]
  events : Array ScopeEvent := #[.opened "global" 1]
  deriving DecidableEq

/-- A step of an analysis. -/
abbrev Analysis (α : Type) := StateT AnalysisState (Except Fault) α

namespace Analysis

/-- Records a finding. -/
def report (line : Int) (finding : Finding) : Analysis Unit :=
  modify fun s => { s with findings := s.findings.push ⟨finding, line⟩ }

/-- The symbol that a name means. -/
def symbol? (name : String) : Analysis (Option Symbol) := do
  return (← get).table.find? name

/-- The routine that the program declares under a name. -/
def routine? (name : String) : Analysis (Option DeclaredRoutine) := do
  return (← get).routines.find? (·.key == Text.lower name)

/-- Records a routine that the program declares. -/
def addRoutine (routine : DeclaredRoutine) : Analysis Unit :=
  modify fun s => { s with routines := routine.insert s.routines }

/-- Changes what is recorded of symbols. -/
def changeTable (change : ScopeTable → ScopeTable) : Analysis Unit :=
  modify fun s => { s with table := change s.table }

/-- Opens a scope. -/
def openScope (name : String) : Analysis Unit :=
  modify fun s =>
    let table := s.table.push name
    { s with table, events := s.events.push (.opened table.current.name table.depth) }

/-- Closes the innermost scope. -/
def closeScope : Analysis Unit :=
  modify fun s =>
    let scope := s.table.current
    let table := s.table.pop
    { s with
      table
      events := s.events.push
        (.closed scope.name scope.entries.length table.current.name table.depth) }

/-- Declares a name in the innermost scope, and tells whether that was possible. -/
def declareSilently (name : String) (ty : Ty) (line : Int) (category : Category) :
    Analysis Bool := do
  let s ← get
  let event := ScopeEvent.declared name ty s.table.current.name line
  match s.table.declare? name ty line category with
  | some table =>
    set { s with table, events := s.events.push (event true) }
    return true
  | none =>
    set { s with events := s.events.push (event false) }
    return false

/-- Declares a name in the innermost scope, and tells whether that was possible. A name that is
declared there already keeps its declaration, and the second one is reported. -/
def declare (what : Declared) (name : String) (ty : Ty) (line : Int) (category : Category) :
    Analysis Bool := do
  if ← declareSilently name ty line category then
    return true
  else
    let table := (← get).table
    match table.findCurrent? name with
    | some existing =>
      report line (.redeclared what name table.current.name existing.ty existing.line)
    | none => pure ()
    return false

/-- Protects a counter. -/
def protect (key : String) : Analysis Unit :=
  modify fun s =>
    { s with counters := if s.counters.contains key then s.counters else key :: s.counters }

/-- Ends the protection of a counter. -/
def unprotect (key : String) : Analysis Unit :=
  modify fun s => { s with counters := s.counters.filter (· != key) }

/-- Reports a change of a counter that is protected. -/
def checkNotCounter (name : String) (line : Int) : Analysis Unit := do
  if (← get).counters.contains (Text.lower name) then
    report line (.counterModified name)

end Analysis
end PascalCheck
