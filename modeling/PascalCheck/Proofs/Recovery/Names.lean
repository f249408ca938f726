import PascalCheck.Analysis.Statement

/-! # Names of the type of errors

The type of errors has a name, `error`, and a declaration may use it: nothing is reported then, and
the declared name means something of that type.  A constant has the type of its value, so it may
have the type of errors from another such name (`NamesError`). -/
namespace PascalCheck

namespace Expr

mutual

/-- The names whose types an expression can have its own type from. -/
def typeNames : Expr → List String
  | identifier name _ | element name _ _ => [name]
  | call name arguments _ => name :: headTypeNames arguments
  | binary _ left right _ => typeNames left ++ typeNames right
  | unary _ operand _ => typeNames operand
  | absent | literal _ _ _ | placeholder _ _ => []

/-- The names for the first one of some expressions. -/
def headTypeNames : List Expr → List String
  | [] => []
  | e :: _ => typeNames e

end

end Expr

/-- What the type of a declared name comes from: the name of a type, or a value. -/
inductive TypeSource where
  | typeName (name : String)
  | value (e : Expr)

/-- A declared name and what its type comes from. -/
abbrev Typing := String × TypeSource

namespace VarDeclaration

def typings (d : VarDeclaration) : List Typing :=
  d.names.map fun n => (n.name, .typeName d.typeSpec.name)

end VarDeclaration

namespace ConstDeclaration

def typing (d : ConstDeclaration) : Typing :=
  (d.name, .value d.value)

end ConstDeclaration

namespace Parameter

def typing (p : Parameter) : Typing :=
  (p.name, .typeName p.typeSpec.name)

end Parameter

namespace Node

mutual

/-- The names that the declarations of a program declare, with what their types come from. -/
def typings : Node → List Typing
  | .program _ declarations _ _ => allTypings declarations
  | .varSection declarations _ => declarations.flatMap VarDeclaration.typings
  | .constSection declarations _ => declarations.map ConstDeclaration.typing
  | .function name parameters result declarations _ _ =>
    (name, .typeName result.name) :: parameters.map Parameter.typing ++ allTypings declarations
  | .procedure _ parameters declarations _ _ =>
    parameters.map Parameter.typing ++ allTypings declarations
  | _ => []

def allTypings : List Node → List Typing
  | [] => []
  | node :: rest => typings node ++ allTypings rest

end

end Node

/-- A name in lower case that means something of the type of errors by the given typings. -/
inductive NamesError (typings : List Typing) : String → Prop where
  | typeName {name typeName : String} (h : (name, .typeName typeName) ∈ typings)
      (ht : Text.lower typeName = "error") : NamesError typings (Text.lower name)
  | value {name other : String} {e : Expr} (h : (name, .value e) ∈ typings)
      (hn : other ∈ e.typeNames) (ho : NamesError typings (Text.lower other)) :
      NamesError typings (Text.lower name)

/-- The program declares the name, in any letter case, with the type of errors. -/
def Program.NamesError (p : Program) (name : String) : Prop :=
  PascalCheck.NamesError p.toNode.typings (Text.lower name)

namespace Ty

theorem ofName?_eq_error_iff (name : String) : ofName? name = some .error ↔ name = "error" := by
  constructor
  · intro h
    have hname := List.find?_some (show named.find? (·.name == name) = some error from h)
    exact (beq_iff_eq.mp hname).symm
  · rintro rfl
    rfl

/-- Only one name is that of the type of errors. -/
theorem resolve_eq_error_iff (typeName : String) :
    resolve typeName = .error ↔ Text.lower typeName = "error" := by
  rw [← ofName?_eq_error_iff]
  unfold resolve
  dsimp only
  cases ofName? (Text.lower typeName) <;> simp

end Ty
end PascalCheck
