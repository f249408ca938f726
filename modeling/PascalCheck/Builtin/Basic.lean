import PascalCheck.Ty.Basic

/-! Built-in routines: how many arguments each takes, and what the functions among them yield. -/
namespace PascalCheck

/-- What a built-in function yields. -/
inductive ResultRule where
  /-- A value of the type of the first argument. -/
  | sameAsFirst
  | fixed (ty : Ty)
  deriving DecidableEq

namespace ResultRule

def name : ResultRule → String
  | sameAsFirst => "same"
  | fixed ty => ty.name

/-- The rule that a name in lower case stands for. -/
def ofName? (name : String) : Option ResultRule :=
  if name = "same" then some sameAsFirst else (Ty.ofName? name).map fixed

/-- The type of the result for arguments of the given types. Without arguments it is an integer
where it would be that of the first one. -/
def type (rule : ResultRule) (arguments : List Ty) : Ty :=
  match rule with
  | sameAsFirst => arguments.headD .integer
  | fixed ty => ty

end ResultRule

/-- A built-in routine, its name in lower case; a procedure has no result. -/
structure BuiltinRoutine where
  name : String
  minimum : Int
  maximum : Int
  result : Option ResultRule := none
  deriving DecidableEq

namespace BuiltinRoutine

def isFunction (routine : BuiltinRoutine) : Bool :=
  routine.result.isSome

/-- The routine takes that many arguments. -/
def accepts (routine : BuiltinRoutine) (count : Int) : Bool :=
  routine.minimum ≤ count && count ≤ routine.maximum

/-- How many arguments the routine takes, in words. -/
def arity (routine : BuiltinRoutine) : String :=
  if routine.minimum = routine.maximum then s!"exactly {routine.minimum} argument(s)"
  else s!"between {routine.minimum} and {routine.maximum} arguments"

/-- The type of the result for arguments of the given types; procedures have none. -/
def resultType? (routine : BuiltinRoutine) (arguments : List Ty) : Option Ty :=
  routine.result.map (·.type arguments)

/-- The routines with one more; one of the same name gives way to it. -/
def insert (routine : BuiltinRoutine) : List BuiltinRoutine → List BuiltinRoutine
  | [] => [routine]
  | other :: rest =>
    if other.name = routine.name then routine :: rest else other :: insert routine rest

end BuiltinRoutine

/-- The built-in functions and procedures, each in the order in which their names were first
given. -/
structure Catalogue where
  functions : List BuiltinRoutine := []
  procedures : List BuiltinRoutine := []
  deriving DecidableEq

namespace Catalogue

/-- The function of a name in any letter case. -/
def function? (catalogue : Catalogue) (name : String) : Option BuiltinRoutine :=
  catalogue.functions.find? (·.name == Text.lower name)

/-- The procedure of a name in any letter case. -/
def procedure? (catalogue : Catalogue) (name : String) : Option BuiltinRoutine :=
  catalogue.procedures.find? (·.name == Text.lower name)

/-- The catalogue with a function of the given name in any letter case. -/
def addFunction (catalogue : Catalogue) (name : String) (minimum maximum : Int)
    (result : ResultRule) : Catalogue :=
  let routine : BuiltinRoutine := ⟨Text.lower name, minimum, maximum, some result⟩
  { catalogue with functions := routine.insert catalogue.functions }

/-- The catalogue with a procedure of the given name in any letter case. -/
def addProcedure (catalogue : Catalogue) (name : String) (minimum maximum : Int) : Catalogue :=
  let routine : BuiltinRoutine := ⟨Text.lower name, minimum, maximum, none⟩
  { catalogue with procedures := routine.insert catalogue.procedures }

end Catalogue
end PascalCheck
