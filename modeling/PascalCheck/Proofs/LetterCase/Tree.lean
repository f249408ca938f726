import PascalCheck.Grammar.Program
import PascalCheck.Proofs.LetterCase.Text

/-! # Names in lower case

Tokens and trees with the ASCII letters of their names in lower case.  Everything else that a tree
holds keeps its letters: the values of literals, operators, and the words of statements. -/
namespace PascalCheck

namespace Token

/-- The token with a name in lower case. -/
def foldName (t : Token) : Token :=
  if t.kind = .identifier then { t with text := t.text.toLower } else t

/-- A token keeps its kind, so that the rules go the same way with its name in lower case. -/
@[simp] theorem kind_foldName (t : Token) : t.foldName.kind = t.kind := by
  unfold foldName
  split <;> rfl

@[simp] theorem line_foldName (t : Token) : t.foldName.line = t.line := by
  unfold foldName
  split <;> rfl

@[simp] theorem column_foldName (t : Token) : t.foldName.column = t.column := by
  unfold foldName
  split <;> rfl

@[simp] theorem start_foldName (t : Token) : t.foldName.start = t.start := by
  unfold foldName
  split <;> rfl

/-- The text of an identifier is the name that is put in lower case. -/
theorem text_foldName {t : Token} (h : t.kind = .identifier) :
    t.foldName.text = t.text.toLower := by
  simp [foldName, h]

/-- Any other token keeps its text as well. -/
theorem foldName_of_ne {t : Token} (h : t.kind ≠ .identifier) : t.foldName = t :=
  if_neg h

/-- Up to letter case every token keeps its text. -/
@[simp] theorem toLower_text_foldName (t : Token) :
    t.foldName.text.toLower = t.text.toLower := by
  unfold foldName
  split
  · exact Text.toLower_toLower _
  · rfl

end Token

/-- The fault with the name of the token that was found in lower case. -/
def GrammarFault.foldName (fault : GrammarFault) : GrammarFault :=
  ⟨fault.demand, fault.found.foldName⟩

/-! ## Trees -/

namespace Expr

mutual

/-- The expression with its names in lower case. -/
@[simp] def foldNames : Expr → Expr
  | absent => absent
  | literal value typeName line => literal value typeName line
  | identifier name line => identifier name.toLower line
  | call name arguments line => call name.toLower (foldAllNames arguments) line
  | element name index line => element name.toLower (foldNames index) line
  | binary op left right line => binary op (foldNames left) (foldNames right) line
  | unary op operand line => unary op (foldNames operand) line
  | placeholder text line => placeholder text line

/-- The expressions with their names in lower case. -/
@[simp] def foldAllNames : List Expr → List Expr
  | [] => []
  | e :: rest => foldNames e :: foldAllNames rest

end

end Expr

/-- The name in lower case, on its line. -/
def DeclaredName.foldNames (name : DeclaredName) : DeclaredName :=
  { name with name := name.name.toLower }

/-- The declaration with its names in lower case; that of the type stays. -/
def VarDeclaration.foldNames (declaration : VarDeclaration) : VarDeclaration :=
  { declaration with names := declaration.names.map DeclaredName.foldNames }

/-- The declaration with its name, and those in its value, in lower case. -/
def ConstDeclaration.foldNames (declaration : ConstDeclaration) : ConstDeclaration :=
  ⟨declaration.name.toLower, declaration.value.foldNames, declaration.line⟩

/-- The parameter with its name in lower case. -/
def Parameter.foldNames (parameter : Parameter) : Parameter :=
  { parameter with name := parameter.name.toLower }

/-- The argument with the names of its value and its format in lower case. -/
def WriteArgument.foldNames (argument : WriteArgument) : WriteArgument :=
  ⟨argument.value.foldNames, argument.width.foldNames, argument.decimals.foldNames⟩

namespace Target

/-- The target with its name, and those of its index, in lower case. -/
def foldNames : Target → Target
  | name n line => name n.toLower line
  | element n index line => element n.toLower index.foldNames line

end Target

namespace Fragment

/-- The fragment of a declaration with its names in lower case. -/
def foldNames : Fragment → Fragment
  | typeSpec spec => typeSpec spec
  | declaredName name => declaredName name.foldNames
  | varDeclaration declaration => varDeclaration declaration.foldNames
  | constDeclaration declaration => constDeclaration declaration.foldNames
  | parameter p => parameter p.foldNames
  | writeArgument argument => writeArgument argument.foldNames

end Fragment

mutual

/-- The declaration or statement with its names in lower case. -/
@[simp] def Node.foldNames : Node → Node
  | .program name declarations body line =>
    .program name.toLower (Node.foldAllNames declarations) (Body.foldNames body) line
  | .varSection declarations line => .varSection (declarations.map VarDeclaration.foldNames) line
  | .constSection declarations line =>
    .constSection (declarations.map ConstDeclaration.foldNames) line
  | .function name parameters result declarations body line =>
    .function name.toLower (parameters.map Parameter.foldNames) result
      (Node.foldAllNames declarations) (Body.foldNames body) line
  | .procedure name parameters declarations body line =>
    .procedure name.toLower (parameters.map Parameter.foldNames)
      (Node.foldAllNames declarations) (Body.foldNames body) line
  | .block statements line => .block (Node.foldAllNames statements) line
  | .assignment target value index line =>
    .assignment target.toLower value.foldNames index.foldNames line
  | .ifThen condition thenBranch elseBranch line =>
    .ifThen condition.foldNames (Node.foldNames thenBranch) (Node.foldNames elseBranch) line
  | .whileDo condition body line => .whileDo condition.foldNames (Node.foldNames body) line
  | .forDo counter start finish downward body line =>
    .forDo counter.toLower start.foldNames finish.foldNames downward (Node.foldNames body) line
  | .repeatUntil statements condition line =>
    .repeatUntil (Node.foldAllNames statements) condition.foldNames line
  | .write routine arguments line => .write routine (arguments.map WriteArgument.foldNames) line
  | .read routine targets line => .read routine (targets.map Target.foldNames) line
  | .call name arguments line => .call name.toLower (Expr.foldAllNames arguments) line
  | .expression e => .expression e.foldNames
  | .fragment f => .fragment f.foldNames

/-- The declarations or statements with their names in lower case. -/
@[simp] def Node.foldAllNames : List Node → List Node
  | [] => []
  | n :: rest => Node.foldNames n :: Node.foldAllNames rest

/-- The body with its names in lower case. -/
@[simp] def Body.foldNames : Body → Body
  | .missing => .missing
  | .block statements line => .block (Node.foldAllNames statements) line

end

/-- The program with its names in lower case. -/
def Program.foldNames (p : Program) : Program :=
  ⟨p.name.toLower, Node.foldAllNames p.declarations, p.body.foldNames, p.line⟩

/-- What is absent has no names. -/
@[simp] theorem Node.isAbsent_foldNames (n : Node) : n.foldNames.isAbsent = n.isAbsent := by
  cases n with
  | expression e => cases e <;> rfl
  | _ => rfl

/-! ## Steps -/

namespace Step
variable {α β : Type}

/-- The step with the names of its value and of its faults in lower case. -/
def foldNames (fold : α → α) (step : Step α) : Step α :=
  ⟨fold step.value, step.used, step.faults.map GrammarFault.foldName⟩

@[simp] theorem foldNames_value (fold : α → α) (step : Step α) :
    (step.foldNames fold).value = fold step.value := rfl

@[simp] theorem foldNames_used (fold : α → α) (step : Step α) :
    (step.foldNames fold).used = step.used := rfl

/-- One step after the other is folded step by step; only the value of the last one counts. -/
@[simp] theorem andThen_foldNames (f : α → α) (g : β → β) (first : Step α) (second : Step β) :
    (first.foldNames f).andThen (second.foldNames g) = (first.andThen second).foldNames g := by
  simp [andThen, foldNames]

/-- A first step that found no fault has no names to put in lower case but those of its value. -/
theorem faultless_andThen_foldNames (value : α) (used : Nat) (g : β → β) (second : Step β) :
    (⟨value, used, []⟩ : Step α).andThen (second.foldNames g) =
      ((⟨value, used, []⟩ : Step α).andThen second).foldNames g := rfl

/-- Tokens that are passed over have no names in the result. -/
@[simp] theorem past_foldNames (f : α → α) (count : Nat) (step : Step α) :
    (step.foldNames f).past count = (step.past count).foldNames f := rfl

/-- A step keeps its faults when its value is replaced. -/
theorem as_foldNames (f : α → α) (g : β → β) (step : Step α) (value : β) :
    (step.foldNames f).as (g value) = (step.as value).foldNames g := rfl

end Step

namespace Grammar
variable {finish : EndMark}

/-- The next token is the same up to the case of its name. -/
@[simp] theorem next_map_foldName (tokens : List Token) :
    next finish (tokens.map Token.foldName) = (next finish tokens).foldName := by
  cases tokens with
  | nil => rfl
  | cons t rest => rfl

@[simp] theorem startsWith_map_foldName (kind : TokenKind) (tokens : List Token) :
    startsWith kind (tokens.map Token.foldName) = startsWith kind tokens := by
  cases tokens with
  | nil => rfl
  | cons t rest => simp [startsWith]

/-- Whether a token is accepted depends on its kind. -/
@[simp] theorem accept_map_foldName (kind : TokenKind) (tokens : List Token) :
    accept kind (tokens.map Token.foldName) = (accept kind tokens).foldNames id := by
  cases tokens with
  | nil => rfl
  | cons t rest =>
    simp only [List.map_cons, accept, Token.kind_foldName]
    split <;> rfl

/-- A refusal names the token that was found, up to the case of its name. -/
@[simp] theorem refuse_map_foldName (demand : Demand) (tokens : List Token) :
    refuse finish demand (tokens.map Token.foldName) =
      (refuse finish demand tokens).foldNames id := by
  simp [refuse, Step.foldNames, GrammarFault.foldName]

/-- An expected token is found, or missed, whatever the case of names. -/
@[simp] theorem expect_map_foldName (kind : TokenKind) (tokens : List Token) :
    expect finish kind (tokens.map Token.foldName) =
      (expect finish kind tokens).foldNames (Option.map Token.foldName) := by
  cases tokens with
  | nil => rfl
  | cons t rest =>
    simp only [List.map_cons, expect, Token.kind_foldName]
    split
    · rfl
    · rw [← List.map_cons, refuse_map_foldName]
      rfl

/-- A name that was expected is in lower case where the tokens are. -/
theorem nameOr_expect_foldName {default : String} (h : default.toLower = default)
    (tokens : List Token) :
    nameOr default ((expect finish .identifier tokens).value.map Token.foldName) =
      (nameOr default (expect finish .identifier tokens).value).toLower := by
  cases tokens with
  | nil => exact h.symm
  | cons t rest =>
    by_cases ht : t.kind = .identifier
    · simp [expect, ht, nameOr, Token.text_foldName ht]
    · simpa [expect, ht, nameOr] using h.symm

end Grammar
end PascalCheck
