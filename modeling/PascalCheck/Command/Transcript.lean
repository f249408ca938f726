import PascalCheck.Text.Lines

/-! What a command leaves behind: its status, and the lines that it writes. -/
namespace PascalCheck

/-- The status of a command, the lines of its output, and the lines of its error output. -/
structure Transcript where
  status : Nat := 0
  output : List String := []
  errors : List String := []
  deriving DecidableEq

namespace Transcript

/-- The transcript after lines that were written before it. -/
def after (transcript : Transcript) (output errors : List String) : Transcript :=
  { transcript with
    output := output ++ transcript.output
    errors := errors ++ transcript.errors }

end Transcript
end PascalCheck
