import PascalCheck.Builtin.Declaration
import PascalCheck.Builtin.Standard
import PascalCheck.Text.Lines

/-! Loading of built-in routines, from tables and from files of declarations. What cannot be loaded
is recorded and passed over. -/
namespace PascalCheck

/-- A line of a file of declarations. -/
structure LinePlace where
  path : String
  line : Nat
  deriving DecidableEq

/-- Why something was not loaded. -/
inductive LoadError where
  | missingFile (path : String)
  | unrecognized (place : LinePlace)
  | missingResult (place : LinePlace) (name : String)
  /-- The result of a function is no type. Without a place, the function stood in a table. -/
  | unknownResult (place : Option LinePlace) (name result : String)
  deriving DecidableEq

namespace LinePlace

def render (place : LinePlace) : String :=
  s!"{place.path}:{place.line}"

end LinePlace

namespace LoadError

def message : LoadError → String
  | missingFile path => s!"File not found: {path}"
  | unrecognized place => s!"{place.render}: unrecognized declaration"
  | missingResult place name => s!"{place.render}: function '{name}' has no return type"
  | unknownResult place name result =>
    let site := (place.map LinePlace.render).getD name
    s!"{site}: unknown return type '{result}' for function '{name}'"

end LoadError

/-- The routines loaded so far, and what could not be loaded. -/
structure Loader where
  catalogue : Catalogue := {}
  errors : List LoadError := []
  deriving DecidableEq

/-- A function in a table. -/
structure FunctionEntry where
  name : String
  result : String
  minimum : Int
  maximum : Int
  deriving DecidableEq

/-- A procedure in a table. -/
structure ProcedureEntry where
  name : String
  minimum : Int
  maximum : Int
  deriving DecidableEq

namespace Loader

def reject (loader : Loader) (error : LoadError) : Loader :=
  { loader with errors := loader.errors ++ [error] }

/-- Loads the standard routines. -/
def loadStandard (loader : Loader) : Loader :=
  { loader with catalogue := loader.catalogue.merge .standard }

/-- Loads a function, if its result is a type. -/
def addFunction (loader : Loader) (place : Option LinePlace) (entry : FunctionEntry) :
    Except LoadError Loader :=
  let result := Text.lower entry.result
  match ResultRule.ofName? result with
  | some rule =>
    .ok { loader with
      catalogue := loader.catalogue.addFunction entry.name entry.minimum entry.maximum rule }
  | none => .error (.unknownResult place entry.name result)

def addProcedure (loader : Loader) (entry : ProcedureEntry) : Loader :=
  { loader with
    catalogue := loader.catalogue.addProcedure entry.name entry.minimum entry.maximum }

/-- The loader after an attempt. -/
def settle (loader : Loader) : Except LoadError Loader → Loader
  | .ok next => next
  | .error error => loader.reject error

/-- Loads the functions and then the procedures of a table. -/
def loadTable (loader : Loader) (functions : List FunctionEntry)
    (procedures : List ProcedureEntry) : Loader :=
  let loaded := functions.foldl (fun l entry => l.settle (l.addFunction none entry)) loader
  procedures.foldl addProcedure loaded

/-- Loads what a line declares. -/
def addDeclaration (loader : Loader) (place : LinePlace) (line : List Char) :
    Except LoadError Loader :=
  match BuiltinDeclaration.read? line with
  | none => .error (.unrecognized place)
  | some d =>
    if d.isFunction then
      match d.result with
      | none => .error (.missingResult place d.name)
      | some result => loader.addFunction (some place) ⟨d.name, result, d.minimum, d.maximum⟩
    else .ok (loader.addProcedure ⟨d.name, d.minimum, d.maximum⟩)

/-- The line declares nothing: it is empty or a comment. -/
def isIdle : List Char → Bool
  | [] => true
  | '/' :: '/' :: _ => true
  | _ => false

/-- Loads the lines of a file from a line number on, and counts the routines loaded. -/
def loadLines (loader : Loader) (path : String) (number : Nat) : List (List Char) → Loader × Nat
  | [] => (loader, 0)
  | line :: rest =>
    let trimmed := Text.trim line
    if isIdle trimmed then loadLines loader path (number + 1) rest
    else match loader.addDeclaration ⟨path, number⟩ trimmed with
      | .ok next =>
        let loaded := loadLines next path (number + 1) rest
        (loaded.1, loaded.2 + 1)
      | .error error => loadLines (loader.reject error) path (number + 1) rest

/-- Loads the text of a file, and counts the routines loaded. -/
def loadText (loader : Loader) (path : String) (text : List Char) : Loader × Nat :=
  loader.loadLines path 1 (Text.splitLines text)

end Loader
end PascalCheck
