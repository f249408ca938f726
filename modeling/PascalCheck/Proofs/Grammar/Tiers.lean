import PascalCheck.Proofs.Grammar.NamedTypes

/-! # Where declarations stand in the trees that are read

Whatever the tokens are, the tree has declarations in two places only, in front of the body of the
program and in front of the body of a routine, and routines in the first of these only. -/
namespace PascalCheck

mutual

/-- Nothing but statements stands in the statement. -/
def Node.isStatement : Node → Bool
  | .program _ _ _ _ | .varSection _ _ | .constSection _ _ | .function _ _ _ _ _ _
  | .procedure _ _ _ _ _ => false
  | .block statements _ => Node.allStatements statements
  | .ifThen _ thenBranch elseBranch _ => Node.isStatement thenBranch && Node.isStatement elseBranch
  | .whileDo _ body _ => Node.isStatement body
  | .forDo _ _ _ _ body _ => Node.isStatement body
  | .repeatUntil statements _ _ => Node.allStatements statements
  | .assignment _ _ _ _ | .write _ _ _ | .read _ _ _ | .call _ _ _ | .expression _ | .fragment _ =>
    true

def Node.allStatements : List Node → Bool
  | [] => true
  | n :: rest => Node.isStatement n && Node.allStatements rest

end

def Body.isTiered : Body → Bool
  | .missing => true
  | .block statements _ => Node.allStatements statements

/-- A section of variables or of constants. -/
def Node.isNameSection : Node → Bool
  | .varSection _ _ | .constSection _ _ => true
  | _ => false

/-- A section, or a routine with sections and statements only. -/
def Node.isTiered : Node → Bool
  | .function _ _ _ declarations body _ | .procedure _ _ declarations body _ =>
    declarations.all Node.isNameSection && body.isTiered
  | n => n.isNameSection

/-- Declarations stand in front of the statements. -/
def Program.isTiered (p : Program) : Bool :=
  p.declarations.all Node.isTiered && p.body.isTiered

namespace Grammar

variable {finish : EndMark}

mutual

/-- **What is read as a statement has nothing but statements in it.** -/
theorem isStatement_statement (tokens : List Token) :
    (statement finish tokens).value.isStatement = true := by
  match tokens with
  | [] => simp [statement, Node.isStatement]
  | t :: rest =>
    rw [statement]
    split
    · rfl
    · exact isStatement_statementFrom t rest
termination_by 3 * tokens.length
decreasing_by simp only [List.length_cons]; omega

/-- Behind each first token the statement holds statements only. -/
theorem isStatement_statementFrom (first : Token) (rest : List Token) :
    (statementFrom finish first rest).value.isStatement = true := by
  rw [statementFrom]
  split
  · split
    · rfl
    · unfold procedureCall
      split <;> rfl
  · exact isStatement_ifStatement first.line rest
  · exact isStatement_whileStatement first.line rest
  · exact isStatement_forStatement first.line rest
  · exact allStatements_repeatStatement first.line rest
  · unfold writeStatement
    split <;> rfl
  · unfold writeStatement
    split <;> rfl
  · unfold readStatement
    split <;> rfl
  · unfold readStatement
    split <;> rfl
  · exact allStatements_block rest
  · rfl
termination_by 3 * rest.length + 2

theorem isStatement_ifStatement (line : Int) (rest : List Token) :
    (ifStatement finish line rest).value.isStatement = true := by
  rw [ifStatement]
  dsimp only
  generalize hthen : (if startsWith (.keyword .else) _ then (⟨.absent, 0, []⟩ : Step Node) else
    statement finish _) = thenBranch
  have hbranch : thenBranch.value.isStatement = true := by
    rw [← hthen]
    split
    · rfl
    · exact isStatement_statement _
  split
  · exact Bool.and_eq_true_iff.mpr ⟨hbranch, isStatement_statement _⟩
  · exact Bool.and_eq_true_iff.mpr ⟨hbranch, rfl⟩
termination_by 3 * rest.length + 1
decreasing_by all_goals (try simp only [List.length_drop]); omega

theorem isStatement_whileStatement (line : Int) (rest : List Token) :
    (whileStatement finish line rest).value.isStatement = true := by
  rw [whileStatement]
  exact isStatement_statement _
termination_by 3 * rest.length + 1
decreasing_by simp only [List.length_drop]; omega

theorem isStatement_forStatement (line : Int) (rest : List Token) :
    (forStatement finish line rest).value.isStatement = true := by
  rw [forStatement]
  exact isStatement_statement _
termination_by 3 * rest.length + 1
decreasing_by simp only [List.length_drop]; omega

theorem allStatements_repeatStatement (line : Int) (rest : List Token) :
    (repeatStatement finish line rest).value.isStatement = true := by
  rw [repeatStatement]
  exact allStatements_statements rest
termination_by 3 * rest.length + 1

theorem allStatements_block (rest : List Token) :
    Node.allStatements (block finish rest).value = true := by
  rw [block]
  exact allStatements_statements rest
termination_by 3 * rest.length + 1

/-- A list of statements has no declaration in it. -/
theorem allStatements_statements (tokens : List Token) :
    Node.allStatements (statements finish tokens).value = true := by
  match tokens with
  | [] => simp [statements, Node.allStatements]
  | t :: rest =>
    rw [statements]
    split
    · rfl
    · split
      · exact allStatements_statements rest
      · show Node.allStatements (ite _ _ _) = true
        split
        · exact allStatements_statements _
        · exact Bool.and_eq_true_iff.mpr
            ⟨isStatement_statementFrom t rest, allStatements_statements _⟩
termination_by 3 * tokens.length
decreasing_by all_goals (try simp only [List.length_drop, List.length_cons]); omega

end

/-- A body, if there is one, is a list of statements. -/
theorem isTiered_body (tokens : List Token) : (body finish tokens).value.isTiered = true :=
  allStatements_block _

/-- A routine declares names and no routines. -/
theorem isNameSection_localSections (tokens : List Token) :
    (localSections finish tokens).value.all Node.isNameSection = true := by
  fun_induction localSections finish tokens with
  | case1 => rfl
  | case2 t rest ht one more ih | case3 t rest hv hc one more ih =>
    exact Bool.and_eq_true_iff.mpr ⟨rfl, ih⟩
  | case4 => rfl

theorem isTiered_functionDeclaration (line : Int) (rest : List Token) :
    (functionDeclaration finish line rest).value.isTiered = true :=
  Bool.and_eq_true_iff.mpr ⟨isNameSection_localSections _, isTiered_body _⟩

theorem isTiered_procedureDeclaration (line : Int) (rest : List Token) :
    (procedureDeclaration finish line rest).value.isTiered = true :=
  Bool.and_eq_true_iff.mpr ⟨isNameSection_localSections _, isTiered_body _⟩

theorem isTiered_declarations (tokens : List Token) :
    (declarations finish tokens).value.all Node.isTiered = true := by
  fun_induction declarations finish tokens with
  | case1 => rfl
  | case2 t rest ht one more ih | case4 t rest ht one more ih =>
    exact Bool.and_eq_true_iff.mpr ⟨rfl, ih⟩
  | case3 t rest ht count ih => exact ih
  | case5 t rest ht one more ih =>
    exact Bool.and_eq_true_iff.mpr ⟨isTiered_functionDeclaration t.line rest, ih⟩
  | case6 t rest ht one more ih =>
    exact Bool.and_eq_true_iff.mpr ⟨isTiered_procedureDeclaration t.line rest, ih⟩
  | case7 => rfl

/-- **In the tree that is read from any tokens declarations stand in front of the statements.** -/
theorem isTiered_parse (tokens : List Token) : (parse tokens).value.isTiered = true :=
  Bool.and_eq_true_iff.mpr ⟨isTiered_declarations _, isTiered_body _⟩

end Grammar
end PascalCheck
