/-! Diagnostics: what was found, in which phase of the check, and where. -/
namespace PascalCheck

/-- How grave a diagnostic is. -/
inductive Severity where
  | warning | error
  deriving DecidableEq

namespace Severity

/-- The severity as result records name it. -/
def label : Severity → String
  | warning => "warning"
  | error => "error"

/-- The severity as reports name it. -/
def title : Severity → String
  | warning => "WARNING"
  | error => "ERROR"

/-- The sign that stands before a reported diagnostic. -/
def icon : Severity → String
  | warning => "⚠️"
  | error => "❌"

end Severity

/-- The phase of the check that found something. -/
inductive Phase where
  | lexical | syntactic | semantic
  deriving DecidableEq

namespace Phase

def label : Phase → String
  | lexical => "Lexical"
  | syntactic => "Syntactic"
  | semantic => "Semantic"

end Phase

/-- Where something was found, as far as that is known. -/
structure Site where
  line : Option Int := none
  column : Option Int := none
  deriving DecidableEq

/-- One diagnostic. A line or column that is not known is -1; a hint may suggest a remedy. -/
structure Diagnostic where
  severity : Severity
  phase : Phase
  message : String
  line : Int := -1
  column : Int := -1
  hint : String := ""
  deriving DecidableEq

namespace Site

/-- The line to record. -/
def recordedLine (site : Site) : Int :=
  site.line.getD (-1)

/-- The column to record: none without a line, and column zero is no column. -/
def recordedColumn (site : Site) : Int :=
  match site.line, site.column with
  | some _, some column => if column = 0 then -1 else column
  | _, _ => -1

end Site

namespace Diagnostic

/-- A diagnostic about a site. -/
def of (severity : Severity) (phase : Phase) (message : String) (site : Site)
    (hint : String) : Diagnostic :=
  ⟨severity, phase, message, site.recordedLine, site.recordedColumn, hint⟩

def isError (d : Diagnostic) : Bool :=
  d.severity = .error

def isWarning (d : Diagnostic) : Bool :=
  d.severity = .warning

/-- The diagnostic written out. Lines count from one, so any other line is unknown. -/
def render (d : Diagnostic) : String :=
  let place := if 0 < d.line then toString d.line else "?"
  let base := s!"[{d.severity.title}] {d.phase.label} line {place}: {d.message}"
  if d.hint = "" then base else s!"{base}\n  hint: {d.hint}"

end Diagnostic
end PascalCheck
