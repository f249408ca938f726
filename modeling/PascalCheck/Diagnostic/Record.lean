import PascalCheck.Diagnostic.Bag

/-! What front ends are shown of the diagnostics of a run. -/
namespace PascalCheck

/-- What front ends are shown of a diagnostic: all but its column and its hint, and a sign. -/
structure DiagnosticRecord where
  message : String
  line : Int
  phase : String
  severity : String
  icon : String
  deriving DecidableEq

def Diagnostic.record (d : Diagnostic) : DiagnosticRecord where
  message := d.message
  line := d.line
  phase := d.phase.label
  severity := d.severity.label
  icon := d.severity.icon

/-- The records of all diagnostics, by line. -/
def Bag.formatted (bag : Bag) : List DiagnosticRecord :=
  bag.sorted.map Diagnostic.record

end PascalCheck
