import PascalCheck.Text.Quoted

/-! What stops a run: none of these is a fault of the program that is checked. -/
namespace PascalCheck

/-- Why a run stops without a result. -/
inductive Fault where
  /-- A part of a tree stands where a declaration or statement belongs. -/
  | noRule (part : String)
  /-- A literal is of a type that has no name. -/
  | unknownType (name : String)
  /-- A procedure is asked for the type of its result. -/
  | noResult
  /-- A directory is read as a file. -/
  | isDirectory (path : String)
  /-- The command line is not understood; the exit status. -/
  | usage (status : Nat)
  deriving DecidableEq

namespace Fault

def message : Fault → String
  | noRule part => s!"no semantic rule for node type {part}"
  | unknownType name => Text.quoted name
  | noResult => "None"
  | isDirectory path => "[Errno 21] Is a directory: " ++ Text.quoted path
  | usage status => toString status

/-- What is reported of a program that could not be checked. -/
def report (fault : Fault) : String :=
  match fault with
  | isDirectory _ => "IsADirectoryError: " ++ fault.message
  | _ => fault.message

end Fault
end PascalCheck
