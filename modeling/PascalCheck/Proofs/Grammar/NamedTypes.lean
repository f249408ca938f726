import PascalCheck.Grammar.Program
import PascalCheck.Proofs.Analysis.Returns

/-! # What stands in the trees that are read

Whatever the tokens are, the reader builds a tree that can be walked: the types of its literals have
names, and no fragment of a declaration stands where a statement belongs.  The rules of the reader
are mutually recursive, and so are the theorems, by the same measure. -/
namespace PascalCheck

/-! ## Trees that can be walked -/

/-- The types of the literals in the argument and in its format have names. -/
def WriteArgument.hasNamedTypes (argument : WriteArgument) : Bool :=
  argument.value.hasNamedTypes && argument.width.hasNamedTypes && argument.decimals.hasNamedTypes

/-- The types of the literals in the index of the target, if any, have names. -/
def Target.hasNamedTypes (target : Target) : Bool :=
  target.toExpr.hasNamedTypes

mutual

/-- The types of the literals in the declaration or statement have names, and no fragment stands in
the place of a statement. -/
@[simp] def Node.isWalkable : Node → Bool
  | .program _ declarations body _ => Node.allWalkable declarations && Body.isWalkable body
  | .varSection _ _ => true
  | .constSection declarations _ => declarations.all (·.value.hasNamedTypes)
  | .function _ _ _ declarations body _ => Node.allWalkable declarations && Body.isWalkable body
  | .procedure _ _ declarations body _ => Node.allWalkable declarations && Body.isWalkable body
  | .block statements _ => Node.allWalkable statements
  | .assignment _ value index _ => value.hasNamedTypes && index.hasNamedTypes
  | .ifThen condition thenBranch elseBranch _ =>
    condition.hasNamedTypes && Node.isWalkable thenBranch && Node.isWalkable elseBranch
  | .whileDo condition body _ => condition.hasNamedTypes && Node.isWalkable body
  | .forDo _ start finish _ body _ =>
    start.hasNamedTypes && finish.hasNamedTypes && Node.isWalkable body
  | .repeatUntil statements condition _ => Node.allWalkable statements && condition.hasNamedTypes
  | .write _ arguments _ => arguments.all WriteArgument.hasNamedTypes
  | .read _ targets _ => targets.all Target.hasNamedTypes
  | .call _ arguments _ => Expr.allHaveNamedTypes arguments
  | .expression e => e.hasNamedTypes
  | .fragment _ => false

/-- All of the declarations or statements can be walked. -/
@[simp] def Node.allWalkable : List Node → Bool
  | [] => true
  | n :: rest => Node.isWalkable n && Node.allWalkable rest

/-- The body can be walked; a missing one has nothing in it. -/
@[simp] def Body.isWalkable : Body → Bool
  | .missing => true
  | .block statements _ => Node.allWalkable statements

end

namespace Grammar

variable {finish : EndMark}

/-! ## Expressions -/

/-- A sign adds no literal. -/
theorem hasNamedTypes_signed (sign : Option Token) {e : Expr} (h : e.hasNamedTypes = true) :
    (signed sign e).hasNamedTypes = true := by
  unfold signed
  split
  · split
    · exact h
    · exact h
  · exact h

/-- A string literal is a character or a string by its length, and both types have names. -/
theorem isSome_ofName?_stringTypeName (text : String) :
    (Ty.ofName? (stringTypeName text)).isSome = true := by
  unfold stringTypeName
  split <;> rfl

mutual

/-- **The literals of an expression that is read are of types that have names.** -/
theorem hasNamedTypes_expression (tokens : List Token) :
    (expression finish tokens).value.hasNamedTypes = true := by
  rw [expression]
  exact hasNamedTypes_relations _ (hasNamedTypes_simple tokens)
termination_by 5 * tokens.length + 3
decreasing_by all_goals (try simp only [List.length_drop]); omega

/-- The operands that follow are put behind an expression that is read already. -/
theorem hasNamedTypes_relations {l : Expr} (tokens : List Token) (h : l.hasNamedTypes = true) :
    (relations finish l tokens).value.hasNamedTypes = true := by
  match tokens with
  | [] => simpa [relations] using h
  | op :: rest =>
    rw [relations]
    split
    · have hr := hasNamedTypes_simple rest
      exact hasNamedTypes_relations _ (by simp [Expr.hasNamedTypes, h, hr])
    · exact h
termination_by 5 * tokens.length
decreasing_by all_goals (try simp only [List.length_drop, List.length_cons]); omega

theorem hasNamedTypes_simple (tokens : List Token) :
    (simple finish tokens).value.hasNamedTypes = true := by
  rw [simple]
  exact hasNamedTypes_sums _ (hasNamedTypes_signed _ (hasNamedTypes_term _))
termination_by 5 * tokens.length + 2
decreasing_by all_goals (try simp only [List.length_drop]); omega

theorem hasNamedTypes_sums {l : Expr} (tokens : List Token) (h : l.hasNamedTypes = true) :
    (sums finish l tokens).value.hasNamedTypes = true := by
  match tokens with
  | [] => simpa [sums] using h
  | op :: rest =>
    rw [sums]
    split
    · have hr := hasNamedTypes_term rest
      exact hasNamedTypes_sums _ (by simp [Expr.hasNamedTypes, h, hr])
    · exact h
termination_by 5 * tokens.length
decreasing_by all_goals (try simp only [List.length_drop, List.length_cons]); omega

theorem hasNamedTypes_term (tokens : List Token) :
    (term finish tokens).value.hasNamedTypes = true := by
  rw [term]
  exact hasNamedTypes_products _ (hasNamedTypes_factor tokens)
termination_by 5 * tokens.length + 1
decreasing_by all_goals (try simp only [List.length_drop]); omega

theorem hasNamedTypes_products {l : Expr} (tokens : List Token) (h : l.hasNamedTypes = true) :
    (products finish l tokens).value.hasNamedTypes = true := by
  match tokens with
  | [] => simpa [products] using h
  | op :: rest =>
    rw [products]
    split
    · have hr := hasNamedTypes_factor rest
      exact hasNamedTypes_products _ (by simp [Expr.hasNamedTypes, h, hr])
    · exact h
termination_by 5 * tokens.length
decreasing_by all_goals (try simp only [List.length_drop, List.length_cons]); omega

/-- The types of literals are written down here, and have names all. -/
theorem hasNamedTypes_factor (tokens : List Token) :
    (factor finish tokens).value.hasNamedTypes = true := by
  match tokens with
  | [] => simp [factor, Expr.hasNamedTypes]
  | t :: rest =>
    rw [factor]
    split
    · rfl
    · rfl
    · exact isSome_ofName?_stringTypeName t.text
    · rfl
    · rfl
    · split
      · exact allHaveNamedTypes_arguments _
      · split
        · exact hasNamedTypes_expression _
        · rfl
    · exact hasNamedTypes_factor rest
    · exact hasNamedTypes_expression rest
    · rfl
termination_by 5 * tokens.length
decreasing_by all_goals (try simp only [List.length_drop, List.length_cons]); omega

/-- Arguments may be none. -/
theorem allHaveNamedTypes_arguments (tokens : List Token) :
    Expr.allHaveNamedTypes (arguments finish tokens).value = true := by
  rw [arguments]
  split
  · rfl
  · have he := hasNamedTypes_expression tokens
    have hes := allHaveNamedTypes_moreArguments (tokens.drop (expression finish tokens).used)
    simp [Expr.allHaveNamedTypes, he, hes]
termination_by 5 * tokens.length + 4
decreasing_by all_goals (try simp only [List.length_drop]); omega

theorem allHaveNamedTypes_moreArguments (tokens : List Token) :
    Expr.allHaveNamedTypes (moreArguments finish tokens).value = true := by
  match tokens with
  | [] => simp [moreArguments, Expr.allHaveNamedTypes]
  | t :: rest =>
    rw [moreArguments]
    split
    · have he := hasNamedTypes_expression rest
      have hes := allHaveNamedTypes_moreArguments (rest.drop (expression finish rest).used)
      simp [Expr.allHaveNamedTypes, he, hes]
    · rfl
termination_by 5 * tokens.length
decreasing_by all_goals (try simp only [List.length_drop, List.length_cons]); omega

end

/-! ## Statements -/

/-- An index that is missing has no literal. -/
theorem isWalkable_assignment (name : Token) (rest : List Token) :
    (assignment finish name rest).value.isWalkable = true := by
  refine Bool.and_eq_true_iff.mpr ⟨hasNamedTypes_expression _, ?_⟩
  split
  · exact hasNamedTypes_expression _
  · rfl

/-- A call without parentheses has no arguments. -/
theorem isWalkable_procedureCall (name : Token) (rest : List Token) :
    (procedureCall finish name rest).value.isWalkable = true := by
  unfold procedureCall
  split
  · exact allHaveNamedTypes_arguments _
  · rfl

/-- Nor has a format that is missing a literal. -/
theorem hasNamedTypes_format (tokens : List Token) :
    (format finish tokens).value.hasNamedTypes = true := by
  unfold format
  split
  · exact hasNamedTypes_expression _
  · rfl

/-- What is written, with its width and decimals. -/
theorem hasNamedTypes_writeArgument (tokens : List Token) :
    (writeArgument finish tokens).value.hasNamedTypes = true := by
  have hvalue : (expression finish tokens).value.hasNamedTypes = true :=
    hasNamedTypes_expression tokens
  unfold writeArgument
  dsimp only
  split
  · simp [WriteArgument.hasNamedTypes, hvalue, hasNamedTypes_format]
  · simp [WriteArgument.hasNamedTypes, hvalue, Expr.hasNamedTypes]

theorem all_moreWriteArguments (tokens : List Token) :
    (moreWriteArguments finish tokens).value.all WriteArgument.hasNamedTypes = true := by
  fun_induction moreWriteArguments finish tokens with
  | case1 => rfl
  | case2 t rest ht argument more ih =>
    exact Bool.and_eq_true_iff.mpr ⟨hasNamedTypes_writeArgument rest, ih⟩
  | case3 => rfl

theorem isWalkable_writeStatement (word : Token) (rest : List Token) :
    (writeStatement finish word rest).value.isWalkable = true := by
  unfold writeStatement
  split
  · show List.all (ite _ _ _ : Step (List WriteArgument)).value _ = true
    split
    · rfl
    · exact Bool.and_eq_true_iff.mpr
        ⟨hasNamedTypes_writeArgument _, all_moreWriteArguments _⟩
  · rfl

/-- A target that is missing leaves nothing behind. -/
theorem all_target (tokens : List Token) :
    (target finish tokens).value.all Target.hasNamedTypes = true := by
  unfold target
  dsimp only
  split
  · rfl
  · split
    · simp [Target.hasNamedTypes, Target.toExpr, Expr.hasNamedTypes, hasNamedTypes_expression]
    · rfl

theorem all_moreTargets (tokens : List Token) :
    (moreTargets finish tokens).value.all Target.hasNamedTypes = true := by
  fun_induction moreTargets finish tokens with
  | case1 => rfl
  | case2 t rest ht one more ih =>
    show (one.value ++ more.value).all Target.hasNamedTypes = true
    rw [List.all_append]
    exact Bool.and_eq_true_iff.mpr ⟨all_target rest, ih⟩
  | case3 => rfl

theorem isWalkable_readStatement (word : Token) (rest : List Token) :
    (readStatement finish word rest).value.isWalkable = true := by
  unfold readStatement
  split
  · show List.all (ite _ _ _ : Step (List Target)).value _ = true
    split
    · rfl
    · show List.all (_ ++ _) _ = true
      rw [List.all_append]
      exact Bool.and_eq_true_iff.mpr ⟨all_target _, all_moreTargets _⟩
  · rfl

/-- An end of a range that is missing is read as no expression. -/
theorem hasNamedTypes_bound (tokens : List Token) :
    (bound finish tokens).value.hasNamedTypes = true := by
  unfold bound
  split
  · rfl
  · exact hasNamedTypes_expression _

mutual

/-- **A statement that is read can be walked.** -/
theorem isWalkable_statement (tokens : List Token) :
    (statement finish tokens).value.isWalkable = true := by
  match tokens with
  | [] => simp [statement, Expr.hasNamedTypes]
  | t :: rest =>
    rw [statement]
    split
    · rfl
    · exact isWalkable_statementFrom t rest
termination_by 3 * tokens.length
decreasing_by simp only [List.length_cons]; omega

/-- The first token decides which statement it is; only statements come of it. -/
theorem isWalkable_statementFrom (first : Token) (rest : List Token) :
    (statementFrom finish first rest).value.isWalkable = true := by
  rw [statementFrom]
  split
  · split
    · exact isWalkable_assignment first rest
    · exact isWalkable_procedureCall first rest
  · exact isWalkable_ifStatement first.line rest
  · exact isWalkable_whileStatement first.line rest
  · exact isWalkable_forStatement first.line rest
  · exact isWalkable_repeatStatement first.line rest
  · exact isWalkable_writeStatement first rest
  · exact isWalkable_writeStatement first rest
  · exact isWalkable_readStatement first rest
  · exact isWalkable_readStatement first rest
  · exact allWalkable_block rest
  · rfl
termination_by 3 * rest.length + 2

/-- A branch that is missing is no fragment. -/
theorem isWalkable_ifStatement (line : Int) (rest : List Token) :
    (ifStatement finish line rest).value.isWalkable = true := by
  rw [ifStatement]
  dsimp only
  generalize hthen : (if startsWith (.keyword .else) _ then (⟨.absent, 0, []⟩ : Step Node) else
    statement finish _) = thenBranch
  have hwalk : thenBranch.value.isWalkable = true := by
    rw [← hthen]
    split
    · rfl
    · exact isWalkable_statement _
  split
  · simp only [Step.as_value, Node.isWalkable, Bool.and_eq_true]
    exact ⟨⟨hasNamedTypes_expression rest, hwalk⟩, isWalkable_statement _⟩
  · simp only [Step.as_value, Node.isWalkable, Bool.and_eq_true]
    exact ⟨⟨hasNamedTypes_expression rest, hwalk⟩, rfl⟩
termination_by 3 * rest.length + 1
decreasing_by all_goals (try simp only [List.length_drop]); omega

theorem isWalkable_whileStatement (line : Int) (rest : List Token) :
    (whileStatement finish line rest).value.isWalkable = true := by
  rw [whileStatement]
  exact Bool.and_eq_true_iff.mpr ⟨hasNamedTypes_expression rest, isWalkable_statement _⟩
termination_by 3 * rest.length + 1
decreasing_by simp only [List.length_drop]; omega

/-- A loop with its range and its body. -/
theorem isWalkable_forStatement (line : Int) (rest : List Token) :
    (forStatement finish line rest).value.isWalkable = true := by
  rw [forStatement]
  simp only [Step.as_value, Node.isWalkable, Bool.and_eq_true]
  exact ⟨⟨hasNamedTypes_expression _, hasNamedTypes_bound _⟩, isWalkable_statement _⟩
termination_by 3 * rest.length + 1
decreasing_by simp only [List.length_drop]; omega

theorem isWalkable_repeatStatement (line : Int) (rest : List Token) :
    (repeatStatement finish line rest).value.isWalkable = true := by
  rw [repeatStatement]
  exact Bool.and_eq_true_iff.mpr ⟨allWalkable_statements rest, hasNamedTypes_expression _⟩
termination_by 3 * rest.length + 1

/-- The statements of a block. -/
theorem allWalkable_block (rest : List Token) :
    Node.allWalkable (block finish rest).value = true := by
  rw [block]
  exact allWalkable_statements rest
termination_by 3 * rest.length + 1

/-- Statements are read one after the other, and what is absent is left out. -/
theorem allWalkable_statements (tokens : List Token) :
    Node.allWalkable (statements finish tokens).value = true := by
  match tokens with
  | [] => simp [statements]
  | t :: rest =>
    rw [statements]
    split
    · rfl
    · split
      · exact allWalkable_statements rest
      · show Node.allWalkable (ite _ _ _) = true
        split
        · exact allWalkable_statements _
        · exact Bool.and_eq_true_iff.mpr
            ⟨isWalkable_statementFrom t rest, allWalkable_statements _⟩
termination_by 3 * tokens.length
decreasing_by all_goals (try simp only [List.length_drop, List.length_cons]); omega

end

/-! ## Declarations -/

/-- The body of a routine or a program. -/
theorem isWalkable_body (tokens : List Token) : (body finish tokens).value.isWalkable = true :=
  allWalkable_block _

/-- The values of constants have no literals but those of expressions. -/
theorem isWalkable_constSection (tokens : List Token) (line : Int) :
    (Node.constSection (constSection finish tokens).value line).isWalkable = true := by
  fun_induction constSection finish tokens with
  | case1 => rfl
  | case2 name rest hn equals value closed more ih =>
    exact Bool.and_eq_true_iff.mpr ⟨hasNamedTypes_expression _, ih⟩
  | case3 => rfl

/-- The sections of a routine. -/
theorem allWalkable_localSections (tokens : List Token) :
    Node.allWalkable (localSections finish tokens).value = true := by
  fun_induction localSections finish tokens with
  | case1 => rfl
  | case2 t rest ht one more ih => exact ih
  | case3 t rest hv hc one more ih =>
    exact Bool.and_eq_true_iff.mpr ⟨isWalkable_constSection rest t.line, ih⟩
  | case4 => rfl

/-- A routine can be walked if its sections and its body can be; its parameters do not matter. -/
theorem isWalkable_functionDeclaration (line : Int) (rest : List Token) :
    (functionDeclaration finish line rest).value.isWalkable = true :=
  Bool.and_eq_true_iff.mpr ⟨allWalkable_localSections _, isWalkable_body _⟩

theorem isWalkable_procedureDeclaration (line : Int) (rest : List Token) :
    (procedureDeclaration finish line rest).value.isWalkable = true :=
  Bool.and_eq_true_iff.mpr ⟨allWalkable_localSections _, isWalkable_body _⟩

/-- **Whatever stands among the declarations can be walked**, for the rest is skipped. -/
theorem allWalkable_declarations (tokens : List Token) :
    Node.allWalkable (declarations finish tokens).value = true := by
  fun_induction declarations finish tokens with
  | case1 => rfl
  | case2 t rest ht one more ih =>
    exact Bool.and_eq_true_iff.mpr ⟨isWalkable_constSection rest t.line, ih⟩
  | case3 t rest ht count ih => exact ih
  | case4 t rest ht one more ih => exact ih
  | case5 t rest ht one more ih =>
    exact Bool.and_eq_true_iff.mpr ⟨isWalkable_functionDeclaration t.line rest, ih⟩
  | case6 t rest ht one more ih =>
    exact Bool.and_eq_true_iff.mpr ⟨isWalkable_procedureDeclaration t.line rest, ih⟩
  | case7 => rfl

/-- **The tree that is read from any tokens can be walked.** -/
theorem isWalkable_parse (tokens : List Token) :
    (parse tokens).value.toNode.isWalkable = true :=
  Bool.and_eq_true_iff.mpr ⟨allWalkable_declarations _, isWalkable_body _⟩

end Grammar
end PascalCheck
