import PascalCheck.Text.Lines

/-! Paths of files. Empty parts and parts that mean the same directory are left out; parts that mean
the enclosing one are kept, since they depend on what is on the disk. -/
namespace PascalCheck

/-- A path: what it begins with if it is absolute, and its parts. -/
structure Path where
  root : String
  parts : List String
  deriving DecidableEq

namespace Path

/-- Two slashes in front stay two; any other number of them is one. -/
def rootOf (slashes : Nat) : String :=
  if slashes = 0 then "" else if slashes = 2 then "//" else "/"

/-- The path that a text writes. -/
def ofText (text : String) : Path :=
  let parts := (Text.splitAt '/' text.toList).map String.ofList
  ⟨rootOf (text.toList.takeWhile (· == '/')).length,
    parts.filter fun part => part != "" && part != "."⟩

def isAbsolute (path : Path) : Bool :=
  path.root != ""

def render (path : Path) : String :=
  if path.root = "" ∧ path.parts = [] then "."
  else path.root ++ "/".intercalate path.parts

/-- The path of something below. -/
def below (path : Path) (parts : List String) : Path :=
  { path with parts := path.parts ++ parts }

/-- The last part. -/
def name (path : Path) : String :=
  path.parts.getLastD ""

end Path
end PascalCheck
