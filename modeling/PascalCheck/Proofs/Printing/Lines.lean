import PascalCheck.Proofs.Grammar.StatementGrammar

/-! Trees without their lines.  Two trees are the same, lines aside, if they are equal without
lines; what a tree says apart from its lines can be read off the tree without them. -/
namespace PascalCheck

namespace Expr

mutual

/-- The expression with no line known. -/
@[simp] def unplaced : Expr → Expr
  | absent => absent
  | literal value typeName _ => literal value typeName 0
  | identifier name _ => identifier name 0
  | call name arguments _ => call name (allUnplaced arguments) 0
  | element name index _ => element name (unplaced index) 0
  | binary op left right _ => binary op (unplaced left) (unplaced right) 0
  | unary op operand _ => unary op (unplaced operand) 0
  | placeholder text _ => placeholder text 0

@[simp] def allUnplaced : List Expr → List Expr
  | [] => []
  | e :: rest => unplaced e :: allUnplaced rest

end

end Expr

def DeclaredName.unplaced (name : DeclaredName) : DeclaredName :=
  { name with line := 0 }

def VarDeclaration.unplaced (declaration : VarDeclaration) : VarDeclaration :=
  { declaration with names := declaration.names.map DeclaredName.unplaced, line := 0 }

def ConstDeclaration.unplaced (declaration : ConstDeclaration) : ConstDeclaration :=
  { declaration with value := declaration.value.unplaced, line := 0 }

def Parameter.unplaced (parameter : Parameter) : Parameter :=
  { parameter with line := 0 }

def WriteArgument.unplaced (argument : WriteArgument) : WriteArgument :=
  ⟨argument.value.unplaced, argument.width.unplaced, argument.decimals.unplaced⟩

namespace Target

def unplaced : Target → Target
  | name n _ => name n 0
  | element n index _ => element n index.unplaced 0

end Target

namespace Fragment

def unplaced : Fragment → Fragment
  | typeSpec spec => typeSpec spec
  | declaredName name => declaredName name.unplaced
  | varDeclaration declaration => varDeclaration declaration.unplaced
  | constDeclaration declaration => constDeclaration declaration.unplaced
  | parameter p => parameter p.unplaced
  | writeArgument argument => writeArgument argument.unplaced

end Fragment

mutual

/-- The declaration or statement with no line known. -/
@[simp] def Node.unplaced : Node → Node
  | .program name declarations body _ =>
    .program name (Node.allUnplaced declarations) (Body.unplaced body) 0
  | .varSection declarations _ => .varSection (declarations.map VarDeclaration.unplaced) 0
  | .constSection declarations _ => .constSection (declarations.map ConstDeclaration.unplaced) 0
  | .function name parameters result declarations body _ =>
    .function name (parameters.map Parameter.unplaced) result (Node.allUnplaced declarations)
      (Body.unplaced body) 0
  | .procedure name parameters declarations body _ =>
    .procedure name (parameters.map Parameter.unplaced) (Node.allUnplaced declarations)
      (Body.unplaced body) 0
  | .block statements _ => .block (Node.allUnplaced statements) 0
  | .assignment target value index _ => .assignment target value.unplaced index.unplaced 0
  | .ifThen condition thenBranch elseBranch _ =>
    .ifThen condition.unplaced (Node.unplaced thenBranch) (Node.unplaced elseBranch) 0
  | .whileDo condition body _ => .whileDo condition.unplaced (Node.unplaced body) 0
  | .forDo counter start finish downward body _ =>
    .forDo counter start.unplaced finish.unplaced downward (Node.unplaced body) 0
  | .repeatUntil statements condition _ =>
    .repeatUntil (Node.allUnplaced statements) condition.unplaced 0
  | .write routine arguments _ => .write routine (arguments.map WriteArgument.unplaced) 0
  | .read routine targets _ => .read routine (targets.map Target.unplaced) 0
  | .call name arguments _ => .call name (Expr.allUnplaced arguments) 0
  | .expression e => .expression e.unplaced
  | .fragment f => .fragment f.unplaced

@[simp] def Node.allUnplaced : List Node → List Node
  | [] => []
  | n :: rest => Node.unplaced n :: Node.allUnplaced rest

@[simp] def Body.unplaced : Body → Body
  | .missing => .missing
  | .block statements _ => .block (Node.allUnplaced statements) 0

end

/-- The program with no line known. -/
def Program.unplaced (p : Program) : Program :=
  ⟨p.name, Node.allUnplaced p.declarations, p.body.unplaced, 0⟩

namespace Node

theorem isAbsent_unplaced (n : Node) : n.unplaced.isAbsent = n.isAbsent := by
  cases n with
  | expression e => cases e <;> rfl
  | _ => rfl

/-- Whether an `else` can follow a statement does not depend on lines. -/
theorem isClosed_unplaced : ∀ n : Node, n.unplaced.isClosed = n.isClosed
  | .ifThen _ _ elseBranch _ => isClosed_unplaced elseBranch
  | .whileDo _ body _ => isClosed_unplaced body
  | .forDo _ _ _ _ body _ => isClosed_unplaced body
  | .expression e => by cases e <;> rfl
  | .program .. | .varSection .. | .constSection .. | .function .. | .procedure .. | .block ..
  | .assignment .. | .repeatUntil .. | .write .. | .read .. | .call .. | .fragment .. => rfl

end Node
end PascalCheck
