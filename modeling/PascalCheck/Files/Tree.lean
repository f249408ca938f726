import PascalCheck.Fault
import PascalCheck.Files.Path
import PascalCheck.Text.Utf8

/-! Files and directories, and the directory in which a run takes place. -/
namespace PascalCheck

/-- What is on a disk at a place. -/
inductive FileEntry where
  | file (bytes : List UInt8)
  | directory
  deriving DecidableEq

/-- Where an entry is: the names on the way to it, from the root of the disk. -/
abbrev DiskPlace := List String

/-- Files and directories. Every directory on the way to an entry or to `home` is there too. -/
structure FileTree where
  /-- Where relative paths begin. -/
  home : DiskPlace
  entries : List (DiskPlace × FileEntry) := []
  deriving DecidableEq

namespace FileTree

/-- The tree with one more entry, which hides an earlier one at the place. -/
def insert (tree : FileTree) (place : DiskPlace) (entry : FileEntry) : FileTree :=
  { tree with entries := (place, entry) :: tree.entries }

/-- The places that are known to be there, apart from those on the way to them. -/
def places (tree : FileTree) : List DiskPlace :=
  tree.home :: tree.entries.map (·.1)

/-- What is at a place. -/
def entry? (tree : FileTree) (place : DiskPlace) : Option FileEntry :=
  match tree.entries.lookup place with
  | some entry => some entry
  | none => if tree.places.any place.isPrefixOf then some .directory else none

/-- The place that parts of a path lead to, if everything on the way is there. -/
def follow (tree : FileTree) (place : DiskPlace) : List String → Option DiskPlace
  | [] => some place
  | part :: rest =>
    let next := if part = ".." then place.dropLast else place ++ [part]
    if tree.entry? place = some .directory ∧ (tree.entry? next).isSome then follow tree next rest
    else none

/-- The place that a path leads to, if something is there. -/
def locate (tree : FileTree) (path : Path) : Option DiskPlace :=
  tree.follow (if path.isAbsolute then [] else tree.home) path.parts

/-- What a path leads to. -/
def look (tree : FileTree) (path : Path) : Option FileEntry :=
  (tree.locate path).bind tree.entry?

def isDirectory (tree : FileTree) (path : Path) : Bool :=
  tree.look path = some .directory

/-- The text of a file, its lines ended by newlines alone; none where there is no file. -/
def readText (tree : FileTree) (path : Path) : Except Fault (Option (List Char)) :=
  match tree.look path with
  | none => .ok none
  | some .directory => .error (.isDirectory path.render)
  | some (.file bytes) => .ok (some (Text.foldNewlines (Text.Utf8.decode bytes)))

/-- What a place begins with, from its first name to the whole of it. -/
def stems : DiskPlace → List DiskPlace
  | [] => []
  | name :: rest => [name] :: (stems rest).map (name :: ·)

/-- The names that lead from a place to everything below it. -/
def below (tree : FileTree) (place : DiskPlace) : List DiskPlace :=
  let inside := tree.places.filter place.isPrefixOf
  (inside.flatMap fun other => stems (other.drop place.length)).eraseDups

/-- The order of places: name by name, and a directory before what lies in it. -/
def precedes : DiskPlace → DiskPlace → Bool
  | [], _ => true
  | _ :: _, [] => false
  | a :: as, b :: bs => decide (a < b) || (a == b && precedes as bs)

/-- The name is that of a source file. -/
def namesSource (name : String) : Bool :=
  ".pas".toList.isSuffixOf name.toList

/-- Everything below a path that has the name of a source file, part by part in order. -/
def sources (tree : FileTree) (path : Path) : List Path :=
  match tree.locate path with
  | none => []
  | some place =>
    let found := (tree.below place).filter fun names => namesSource (names.getLastD "")
    (found.mergeSort precedes).map path.below

end FileTree
end PascalCheck
