import PascalCheck.Command.Verify

/-! The command line. What it names on the disk is read first; the command then runs on what was
read. -/
namespace PascalCheck
namespace Disk

/-- A place as the operating system writes it. -/
def text (place : DiskPlace) : String :=
  "/" ++ "/".intercalate place

/-- The directory of the run. -/
def home : IO DiskPlace := do
  return (Path.ofText (← IO.currentDir).toString).parts

/-- Adds a place, if something is there, and tells whether it is a directory. -/
def add (tree : FileTree) (place : DiskPlace) : IO (FileTree × Bool) := do
  let path := (← IO.currentDir) / text place
  if ← path.isDir then return (tree.insert place .directory, true)
  else if ← path.pathExists then
    let bytes ← IO.FS.readBinFile path
    return (tree.insert place (.file bytes.toList), false)
  else return (tree, false)

/-- Adds the places that parts of a path lead to, one after the other. -/
def addPath (tree : FileTree) (place : DiskPlace) : List String → IO FileTree
  | [] => return (← add tree place).1
  | part :: rest => do
    let (next, isDirectory) ← add tree place
    if isDirectory then
      addPath next (if part = ".." then place.dropLast else place ++ [part]) rest
    else return next

/-- Adds a place and everything below it. -/
partial def addAll (tree : FileTree) (place : DiskPlace) : IO FileTree := do
  let (next, isDirectory) ← add tree place
  if isDirectory then
    let path := (← IO.currentDir) / text place
    (← path.readDir).foldlM (fun t entry => addAll t (place ++ [entry.fileName])) next
  else return next

/-- What a command line names. -/
def read (arguments : Arguments) : IO FileTree := do
  let place ← home
  let named := (arguments.builtins :: arguments.clean :: arguments.errors :: arguments.files).map
    Path.ofText
  let found ← named.foldlM
    (fun tree path => addPath tree (if path.isAbsolute then [] else place) path.parts)
    { home := place }
  let directories := [arguments.clean, arguments.errors].filter (· != "")
  directories.foldlM (fun tree text =>
    match tree.locate (.ofText text) with
    | some below => addAll tree below
    | none => return tree) found

end Disk

/-- Runs a command line. -/
def runCommandLine (line : List String) : IO UInt32 := do
  let files ← match Arguments.read line with
    | .ok arguments => Disk.read arguments
    | .error _ => pure { home := [] }
  match Command.run files line with
  | .ok transcript =>
    IO.print (Text.joinLines transcript.output)
    IO.eprint (Text.joinLines transcript.errors)
    return transcript.status.toUInt32
  | .error (.usage status) =>
    IO.eprintln "usage: check FILE... | verify [--clean DIR] [--errors DIR]"
    return status.toUInt32
  | .error fault =>
    IO.eprintln fault.message
    return 1

end PascalCheck

def main (line : List String) : IO UInt32 :=
  PascalCheck.runCommandLine line
