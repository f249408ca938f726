import PascalCheck.Command.Check

/-! The command that checks directories of programs, of which it is known whether anything is to be
found in them. -/
namespace PascalCheck

/-- How a program fares. -/
inductive Standing where
  | passed
  | failed (detail : String)
  /-- The program could not be checked. -/
  | crashed (detail : String)
  deriving DecidableEq

namespace Standing

def label : Standing → String
  | passed => "OK"
  | failed _ => "FAIL"
  | crashed _ => "CRASH"

def detail? : Standing → Option String
  | passed => none
  | failed detail => some detail
  | crashed detail => some detail

end Standing

/-- How many programs passed, failed and crashed. -/
structure Tally where
  passed : Nat := 0
  failed : Nat := 0
  crashed : Nat := 0
  deriving DecidableEq

namespace Tally

/-- The tally with one more program. -/
def count (tally : Tally) : Standing → Tally
  | .passed => { tally with passed := tally.passed + 1 }
  | .failed _ => { tally with failed := tally.failed + 1 }
  | .crashed _ => { tally with crashed := tally.crashed + 1 }

def total (tally : Tally) : Nat :=
  tally.passed + tally.failed + tally.crashed

def render (tally : Tally) : String :=
  s!"{tally.total} file(s): {tally.passed} passed, {tally.failed} failed, {tally.crashed} crashed"

/-- The status of a command that leaves this tally. -/
def status (tally : Tally) : Nat :=
  if tally.failed + tally.crashed = 0 then 0 else 1

end Tally

/-- A directory of programs, and whether anything is to be found in them. -/
structure ProgramGroup where
  title : String
  directory : String
  expectsFindings : Bool
  deriving DecidableEq

namespace Command

/-- The groups of programs that a command line names. -/
def groups (arguments : Arguments) : List ProgramGroup :=
  let clean : ProgramGroup :=
    ⟨"clean programs (expected: no diagnostics)", arguments.clean, false⟩
  let errors : ProgramGroup :=
    ⟨"erroneous programs (expected: diagnostics)", arguments.errors, true⟩
  [clean, errors].filter (·.directory != "")

/-- What is said of a program in which too much was found. -/
def unexpected (bag : Bag) : String :=
  let heading := s!"found {bag.size} unexpected diagnostic(s):"
  "\n".intercalate (heading :: bag.sorted.map fun d => s!"    [line {d.line}] {d.message}")

/-- How a program fares, given what its check gave. -/
def standing (expectsFindings : Bool) : Except Fault Outcome → Standing
  | .ok outcome =>
    if outcome.bag.isEmpty ≠ expectsFindings then .passed
    else if expectsFindings then .failed "expected at least one diagnostic, found none"
    else .failed (unexpected outcome.bag)
  | .error fault => .crashed fault.report

/-- The lines on a program. -/
def standingLines (path : Path) (standing : Standing) : List String :=
  s!"[{standing.label}] {path.name}" :: standing.detail?.toList.map ("    " ++ ·)

/-- What the programs seen so far leave behind. -/
structure Progress where
  tally : Tally := {}
  output : List String := []
  errors : List String := []

/-- Checks a program of a group. -/
def verifyFile (arguments : Arguments) (files : FileTree) (catalogue : Catalogue)
    (group : ProgramGroup) (progress : Progress) (path : Path) : Progress :=
  let outcome := Outcome.ofFile catalogue files path
  let standing := standing group.expectsFindings outcome
  let log := match outcome with
    | .ok outcome => outcome.log
    | .error _ => []
  ⟨progress.tally.count standing, progress.output ++ standingLines path standing,
    progress.errors ++ logged arguments log⟩

/-- Checks the groups, in order, up to one whose directory is not there. -/
def verifyGroups (arguments : Arguments) (files : FileTree) (catalogue : Catalogue)
    (progress : Progress) : List ProgramGroup → Transcript
  | [] => ⟨progress.tally.status, progress.output ++ [progress.tally.render], progress.errors⟩
  | group :: rest =>
    let path := Path.ofText group.directory
    if files.isDirectory path then
      let opened := { progress with
        output := progress.output ++ [s!"--- {group.title}: {group.directory}"] }
      let closed := (files.sources path).foldl (verifyFile arguments files catalogue group) opened
      verifyGroups arguments files catalogue { closed with output := closed.output ++ [""] } rest
    else
      ⟨2, progress.output, progress.errors ++ [s!"❌ directory not found: {group.directory}"]⟩

/-- The command that checks directories of programs. -/
def verify (arguments : Arguments) (files : FileTree) : Except Fault Transcript :=
  withBuiltins arguments files fun catalogue =>
    match groups arguments with
    | [] => .ok ⟨2, [], ["❌ nothing to verify: pass --clean DIR and/or --errors DIR"]⟩
    | named => .ok (verifyGroups arguments files catalogue {} named)

/-- Runs the command with its arguments. -/
def perform (arguments : Arguments) (files : FileTree) : Except Fault Transcript :=
  match arguments.command with
  | .check => check arguments files
  | .verify => verify arguments files

/-- Runs the command that a command line asks for. -/
def run (files : FileTree) (line : List String) : Except Fault Transcript := do
  perform (← Arguments.read line) files

end Command
end PascalCheck
