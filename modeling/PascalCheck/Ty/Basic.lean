import PascalCheck.Text.Case

/-! Types of values. An array has the type of its elements. -/
namespace PascalCheck

/-- The type of a value. -/
inductive Ty where
  | integer | real | boolean | char | string
  /-- The type of an expression in which a fault has been found. -/
  | error
  /-- A type that the program defines. Its definition is not known. -/
  | custom (name : String)
  deriving DecidableEq

namespace Ty

def name : Ty → String
  | integer => "integer"
  | real => "real"
  | boolean => "boolean"
  | char => "char"
  | string => "string"
  | error => "error"
  | custom name => name

/-- The types that have a name of their own. -/
def named : List Ty :=
  [integer, real, boolean, char, string, error]

/-- The type that a name in lower case belongs to. -/
def ofName? (name : String) : Option Ty :=
  named.find? (·.name == name)

/-- The type that a declaration names, in any letter case; any other name is that of a type
which the program defines. -/
def resolve (name : String) : Ty :=
  let key := Text.lower name
  (ofName? key).getD (custom key)

def isError : Ty → Bool
  | error => true
  | _ => false

/-- Two types are the same if they have the same name; an error is the same as errors only. -/
def same : Ty → Ty → Bool
  | error, error => true
  | error, _ => false
  | _, error => false
  | a, b => a.name == b.name

def isNumeric (t : Ty) : Bool :=
  t.same integer || t.same real

/-- Different types of which the first accepts values of the second: integers widen to reals, and
characters to strings. -/
def widens : Ty → Ty → Bool
  | real, integer => true
  | string, char => true
  | _, _ => false

/-- A variable of the first type accepts values of the second. An error is accepted everywhere and
accepts everything, since it has been reported. -/
def accepts (target value : Ty) : Bool :=
  target.isError || value.isError || target.same value || widens target value

end Ty
end PascalCheck
