import PascalCheck.Proofs.Grammar.Acceptance
import PascalCheck.Proofs.Grammar.Tiers
import PascalCheck.Proofs.Walk.Steps

/-! # What a walk mentions stands in the text

Some names of a tree are made up by the reader: a loop may be without its counter, and a routine
without its name.  The others are those of expressions, calls, assignments, and places to read into,
and each of them is the text of an identifier: a property that the texts of all identifiers have is
one of all of these names (`mentions_parse`). -/
namespace PascalCheck

variable {N : String → Prop}

namespace Action

/-- The name of something that is used, changed or called. -/
def mentioned? : Action → Option String
  | name n _ | element n _ | call n _ _ | target n _ | store n _ | read _ n _ | invoke n _ _ =>
    some n
  | _ => none

/-- The name that the step mentions, if it mentions one, has the property. -/
def Mentions (N : String → Prop) (action : Action) : Prop :=
  ∀ n, action.mentioned? = some n → N n

/-- A step that mentions nothing mentions what one likes. -/
theorem mentions_of_none {action : Action} (h : action.mentioned? = none) : action.Mentions N := by
  intro n hn
  rw [h] at hn
  cases hn

theorem mentions_of_some {action : Action} {n : String} (h : N n)
    (hn : action.mentioned? = some n) : action.Mentions N := by
  intro other hother
  rw [hn] at hother
  obtain rfl := Option.some.inj hother
  exact h

end Action

/-- The names that the steps mention have the property. -/
abbrev MentionOnly (N : String → Prop) (actions : List Action) : Prop :=
  AllSteps (Action.Mentions N) actions

/-- The names in the expression have the property. -/
abbrev Expr.Mentions (N : String → Prop) (e : Expr) : Prop :=
  MentionOnly N e.script

/-- The names in the declaration or statement have the property. -/
abbrev Node.Mentions (N : String → Prop) (node : Node) : Prop :=
  MentionOnly N node.script

theorem Expr.mentions_absent : Expr.absent.Mentions N :=
  .single (Action.mentions_of_none rfl)

theorem Node.mentions_absent : Node.absent.Mentions N :=
  .append Expr.mentions_absent (.single (Action.mentions_of_none rfl))

/-- An expression, and a step behind it that mentions nothing. -/
theorem Expr.Mentions.used {e : Expr} (h : e.Mentions N) {action : Action}
    (haction : action.mentioned? = none) : MentionOnly N (e.script ++ [action]) :=
  AllSteps.append h (.single (Action.mentions_of_none haction))

/-- The step of the operation itself mentions nothing. -/
theorem Expr.Mentions.binary {left right : Expr} (h : left.Mentions N) (h' : right.Mentions N)
    (op : String) (line : Int) : (Expr.binary op left right line).Mentions N :=
  AllSteps.append (AllSteps.append h h') (.single (Action.mentions_of_none rfl))

theorem Expr.Mentions.unary {e : Expr} (h : e.Mentions N) (op : String) (line : Int) :
    (Expr.unary op e line).Mentions N :=
  h.used rfl

namespace Grammar

/-- The texts of identifiers have the property. -/
def Provides (N : String → Prop) (tokens : List Token) : Prop :=
  ∀ t ∈ tokens, t.kind = .identifier → N t.text

namespace Provides
variable {t : Token} {tokens rest : List Token}

theorem drop (h : Provides N tokens) (count : Nat) : Provides N (tokens.drop count) :=
  fun t ht => h t (List.mem_of_mem_drop ht)

/-- A name is to be had where an identifier is next. -/
theorem head (h : Provides N (t :: rest)) (ht : t.kind = .identifier) : N t.text :=
  h t List.mem_cons_self ht

theorem tail (h : Provides N (t :: rest)) : Provides N rest :=
  h.drop 1

end Provides

variable {finish : EndMark}

/-! ## Expressions -/

/-- A sign mentions nothing. -/
theorem mentions_signed (sign : Option Token) {e : Expr} (h : e.Mentions N) :
    (signed sign e).Mentions N := by
  unfold signed
  split
  · split
    · exact h.unary "-" _
    · exact h
  · exact h

mutual

/-- **The names in an expression are texts of identifiers.** -/
theorem mentions_expression (tokens : List Token) (h : Provides N tokens) :
    (expression finish tokens).value.Mentions N := by
  rw [expression]
  exact mentions_relations (mentions_simple tokens h) _ (h.drop _)
termination_by 5 * tokens.length + 3
decreasing_by all_goals (try simp only [List.length_drop]); omega

theorem mentions_relations {left : Expr} (hleft : left.Mentions N) (tokens : List Token)
    (h : Provides N tokens) : (relations finish left tokens).value.Mentions N := by
  match tokens with
  | [] => rwa [relations]
  | op :: rest =>
    rw [relations]
    split
    · have hright := mentions_simple rest h.tail
      exact mentions_relations (hleft.binary hright _ _) _ (h.tail.drop _)
    · exact hleft
termination_by 5 * tokens.length
decreasing_by all_goals (try simp only [List.length_drop, List.length_cons]); omega

theorem mentions_simple (tokens : List Token) (h : Provides N tokens) :
    (simple finish tokens).value.Mentions N := by
  rw [simple]
  exact mentions_sums (mentions_signed _ (mentions_term _ (h.drop _))) _ (h.drop _)
termination_by 5 * tokens.length + 2
decreasing_by all_goals (try simp only [List.length_drop]); omega

theorem mentions_sums {left : Expr} (hleft : left.Mentions N) (tokens : List Token)
    (h : Provides N tokens) : (sums finish left tokens).value.Mentions N := by
  match tokens with
  | [] => rwa [sums]
  | op :: rest =>
    rw [sums]
    split
    · have hright := mentions_term rest h.tail
      exact mentions_sums (hleft.binary hright _ _) _ (h.tail.drop _)
    · exact hleft
termination_by 5 * tokens.length
decreasing_by all_goals (try simp only [List.length_drop, List.length_cons]); omega

theorem mentions_term (tokens : List Token) (h : Provides N tokens) :
    (term finish tokens).value.Mentions N := by
  rw [term]
  exact mentions_products (mentions_factor tokens h) _ (h.drop _)
termination_by 5 * tokens.length + 1
decreasing_by all_goals (try simp only [List.length_drop]); omega

theorem mentions_products {left : Expr} (hleft : left.Mentions N) (tokens : List Token)
    (h : Provides N tokens) : (products finish left tokens).value.Mentions N := by
  match tokens with
  | [] => rwa [products]
  | op :: rest =>
    rw [products]
    split
    · have hright := mentions_factor rest h.tail
      exact mentions_products (hleft.binary hright _ _) _ (h.tail.drop _)
    · exact hleft
termination_by 5 * tokens.length
decreasing_by all_goals (try simp only [List.length_drop, List.length_cons]); omega

theorem mentions_factor (tokens : List Token) (h : Provides N tokens) :
    (factor finish tokens).value.Mentions N := by
  match tokens with
  | [] =>
    rw [factor]
    exact .single (Action.mentions_of_none rfl)
  | t :: rest =>
    rw [factor]
    split
    iterate 5 exact .single (Action.mentions_of_none rfl)
    next hkind =>
      have hname : ∀ {action : Action}, action.mentioned? = some t.text →
          MentionOnly N [action] := fun haction =>
        .single (Action.mentions_of_some (h.head hkind) haction)
      split
      · exact AllSteps.append (mentions_arguments _ (h.tail.drop 1)) (hname rfl)
      · split
        · exact AllSteps.append (mentions_expression _ (h.tail.drop 1)) (hname rfl)
        · exact hname rfl
    · exact (mentions_factor rest h.tail).unary "not" _
    · exact mentions_expression rest h.tail
    · exact .single (Action.mentions_of_none rfl)
termination_by 5 * tokens.length
decreasing_by all_goals (try simp only [List.length_drop, List.length_cons]); omega

theorem mentions_arguments (tokens : List Token) (h : Provides N tokens) :
    MentionOnly N (Expr.scripts (arguments finish tokens).value) := by
  rw [arguments]
  split
  · exact .nil
  · exact (mentions_expression tokens h).append (mentions_moreArguments _ (h.drop _))
termination_by 5 * tokens.length + 4
decreasing_by all_goals (try simp only [List.length_drop]); omega

theorem mentions_moreArguments (tokens : List Token) (h : Provides N tokens) :
    MentionOnly N (Expr.scripts (moreArguments finish tokens).value) := by
  match tokens with
  | [] =>
    rw [moreArguments]
    exact .nil
  | t :: rest =>
    rw [moreArguments]
    split
    · exact (mentions_expression rest h.tail).append
        (mentions_moreArguments _ (h.tail.drop _))
    · exact .nil
termination_by 5 * tokens.length
decreasing_by all_goals (try simp only [List.length_drop, List.length_cons]); omega

end

/-! ## Statements -/

/-- The name that stands in front is the text of a token that has been read. -/
theorem mentions_assignment {name : Token} {rest : List Token} (hname : N name.text)
    (h : Provides N rest) : (assignment finish name rest).value.Mentions N := by
  have hindex : (if startsWith .leftBracket rest then
      let index := (expression finish (rest.drop 1)).past 1
      (index.andThen (expect finish .rightBracket (rest.drop index.used))).as index.value
      else ⟨.absent, 0, []⟩ : Step Expr).value.Mentions N := by
    split
    · exact mentions_expression _ (h.drop 1)
    · exact Expr.mentions_absent
  exact .cons (Action.mentions_of_some hname rfl) ((hindex.append
    (mentions_expression _ (h.drop _))).append (.single (Action.mentions_of_some hname rfl)))

theorem mentions_procedureCall {name : Token} {rest : List Token} (hname : N name.text)
    (h : Provides N rest) : (procedureCall finish name rest).value.Mentions N := by
  have hcall : ∀ es : List Expr, MentionOnly N (Expr.scripts es) →
      (Node.call name.text es name.line).Mentions N := fun es hes =>
    hes.append (.cons (Action.mentions_of_none rfl)
      (.single (Action.mentions_of_some hname rfl)))
  unfold procedureCall
  split
  · exact hcall _ (mentions_arguments _ (h.drop 1))
  · exact hcall [] .nil

theorem mentions_format {tokens : List Token} (h : Provides N tokens) :
    (format finish tokens).value.Mentions N := by
  unfold format
  split
  · exact mentions_expression _ (h.drop 1)
  · exact Expr.mentions_absent

/-- The value and both formats, of which the absent ones mention nothing. -/
theorem mentions_writeArgument {tokens : List Token} (h : Provides N tokens) :
    MentionOnly N (writeArgument finish tokens).value.script := by
  have hargument : ∀ value width decimals : Expr, value.Mentions N → width.Mentions N →
      decimals.Mentions N → MentionOnly N (WriteArgument.mk value width decimals).script :=
    fun _ _ _ hvalue hwidth hdecimals =>
      ((AllSteps.append hvalue hwidth).append hdecimals).append
        (.single (Action.mentions_of_none rfl))
  have hvalue := @mentions_expression N finish tokens h
  unfold writeArgument
  dsimp only
  split
  · exact hargument _ _ _ hvalue (mentions_format (h.drop _)) (mentions_format (h.drop _))
  · exact hargument _ _ _ hvalue Expr.mentions_absent Expr.mentions_absent

theorem mentions_moreWriteArguments {tokens : List Token} (h : Provides N tokens) :
    MentionOnly N ((moreWriteArguments finish tokens).value.flatMap WriteArgument.script) := by
  fun_induction moreWriteArguments finish tokens with
  | case1 => exact .nil
  | case2 t rest ht argument more ih =>
    exact (mentions_writeArgument h.tail).append (ih (h.tail.drop _))
  | case3 => exact .nil

theorem mentions_writeStatement (word : Token) {rest : List Token} (h : Provides N rest) :
    (writeStatement finish word rest).value.Mentions N := by
  unfold writeStatement
  split
  · show MentionOnly N ((ite _ _ _ : Step (List WriteArgument)).value.flatMap
      WriteArgument.script)
    split
    · exact .nil
    · exact (mentions_writeArgument (h.drop 1)).append (mentions_moreWriteArguments (h.drop _))
  · exact .nil

/-- A place to read into has the text of an identifier, or is none at all. -/
theorem mentions_target (routine : String) {tokens : List Token} (h : Provides N tokens) :
    MentionOnly N ((target finish tokens).value.flatMap (Target.script routine)) := by
  cases tokens with
  | nil => exact .nil
  | cons t rest =>
    unfold target
    by_cases hkind : t.kind = .identifier
    · have hname : ∀ line, (Action.read routine t.text line).Mentions N := fun line =>
        Action.mentions_of_some (h.head hkind) rfl
      rw [expect_cons hkind]
      dsimp only
      split
      · have hindex := @mentions_expression N finish _ ((h.drop 1).drop 1)
        exact AllSteps.append (hindex.append (.cons (Action.mentions_of_none rfl)
          (.single (hname _)))) .nil
      · exact .single (hname _)
    · rw [expect, if_neg hkind]
      exact .nil

theorem mentions_moreTargets (routine : String) {tokens : List Token} (h : Provides N tokens) :
    MentionOnly N ((moreTargets finish tokens).value.flatMap (Target.script routine)) := by
  fun_induction moreTargets finish tokens with
  | case1 => exact .nil
  | case2 t rest ht one more ih =>
    show MentionOnly N ((one.value ++ more.value).flatMap (Target.script routine))
    rw [List.flatMap_append]
    exact (mentions_target routine h.tail).append (ih (h.tail.drop _))
  | case3 => exact .nil

theorem mentions_readStatement (word : Token) {rest : List Token} (h : Provides N rest) :
    (readStatement finish word rest).value.Mentions N := by
  unfold readStatement
  split
  · show MentionOnly N ((ite _ _ _ : Step (List Target)).value.flatMap (Target.script word.text))
    split
    · exact .nil
    · show MentionOnly N ((_ ++ _ : List Target).flatMap (Target.script word.text))
      rw [List.flatMap_append]
      exact (mentions_target word.text (h.drop 1)).append
        (mentions_moreTargets word.text (h.drop _))
  · exact .nil

/-- A bound that is left out mentions nothing. -/
theorem mentions_bound {tokens : List Token} (h : Provides N tokens) :
    (bound finish tokens).value.Mentions N := by
  unfold bound
  split
  · exact Expr.mentions_absent
  · exact mentions_expression tokens h

mutual

/-- **The names in a statement are texts of identifiers.** -/
theorem mentions_statement (tokens : List Token) (h : Provides N tokens) :
    (statement finish tokens).value.Mentions N := by
  match tokens with
  | [] =>
    rw [statement]
    exact Node.mentions_absent
  | t :: rest =>
    rw [statement]
    split
    · exact Node.mentions_absent
    · exact mentions_statementFrom t rest h
termination_by 3 * tokens.length
decreasing_by simp only [List.length_cons]; omega

theorem mentions_statementFrom (first : Token) (rest : List Token)
    (h : Provides N (first :: rest)) : (statementFrom finish first rest).value.Mentions N := by
  rw [statementFrom]
  split
  next hkind =>
    split
    · exact mentions_assignment (h.head hkind) h.tail
    · exact mentions_procedureCall (h.head hkind) h.tail
  next => exact mentions_ifStatement first.line rest h.tail
  next => exact mentions_whileStatement first.line rest h.tail
  next => exact mentions_forStatement first.line rest h.tail
  next => exact mentions_repeatStatement first.line rest h.tail
  next => exact mentions_writeStatement first h.tail
  next => exact mentions_writeStatement first h.tail
  next => exact mentions_readStatement first h.tail
  next => exact mentions_readStatement first h.tail
  next =>
    exact .cons (Action.mentions_of_none rfl)
      ((mentions_block rest h.tail).append (.single (Action.mentions_of_none rfl)))
  next => exact Node.mentions_absent
termination_by 3 * rest.length + 2

theorem mentions_ifStatement (line : Int) (rest : List Token) (h : Provides N rest) :
    (ifStatement finish line rest).value.Mentions N := by
  rw [ifStatement]
  dsimp only
  generalize hthen : (if startsWith (.keyword .else) _ then (⟨.absent, 0, []⟩ : Step Node) else
    statement finish _) = thenBranch
  have hcondition := (@mentions_expression N finish rest h).used
    (show (Action.condition .ifThen line).mentioned? = none from rfl)
  have hbranch : thenBranch.value.Mentions N := by
    rw [← hthen]
    split
    · exact Node.mentions_absent
    · exact mentions_statement _ (h.drop _)
  split
  · exact (hcondition.append hbranch).append (mentions_statement _ (h.drop _))
  · exact (hcondition.append hbranch).append Node.mentions_absent
termination_by 3 * rest.length + 1
decreasing_by all_goals (try simp only [List.length_drop]); omega

theorem mentions_whileStatement (line : Int) (rest : List Token) (h : Provides N rest) :
    (whileStatement finish line rest).value.Mentions N := by
  rw [whileStatement]
  exact ((mentions_expression rest h).used rfl).append (mentions_statement _ (h.drop _))
termination_by 3 * rest.length + 1
decreasing_by simp only [List.length_drop]; omega

theorem mentions_forStatement (line : Int) (rest : List Token) (h : Provides N rest) :
    (forStatement finish line rest).value.Mentions N := by
  rw [forStatement]
  refine AllSteps.append (AllSteps.append (AllSteps.append (AllSteps.append
    (.cons (Action.mentions_of_none rfl) ?start) ?stop) ?enter) ?body) ?leave
  case start => exact (mentions_expression _ (h.drop _)).used rfl
  case stop => exact (mentions_bound (h.drop _)).used rfl
  case body => exact mentions_statement _ (h.drop _)
  case enter | leave => exact .single (Action.mentions_of_none rfl)
termination_by 3 * rest.length + 1
decreasing_by simp only [List.length_drop]; omega

theorem mentions_repeatStatement (line : Int) (rest : List Token) (h : Provides N rest) :
    (repeatStatement finish line rest).value.Mentions N := by
  rw [repeatStatement]
  exact ((mentions_statements rest h).append (mentions_expression _ (h.drop _))).append
    (.single (Action.mentions_of_none rfl))
termination_by 3 * rest.length + 1

theorem mentions_block (rest : List Token) (h : Provides N rest) :
    MentionOnly N (Node.scripts (block finish rest).value) := by
  rw [block]
  exact mentions_statements rest h
termination_by 3 * rest.length + 1

theorem mentions_statements (tokens : List Token) (h : Provides N tokens) :
    MentionOnly N (Node.scripts (statements finish tokens).value) := by
  match tokens with
  | [] =>
    rw [statements]
    exact .nil
  | t :: rest =>
    rw [statements]
    split
    · exact .nil
    · split
      · exact mentions_statements rest h.tail
      · show MentionOnly N (Node.scripts (ite _ _ _))
        split
        · exact mentions_statements _ (h.tail.drop _)
        · exact (mentions_statementFrom t rest h).append
            (mentions_statements _ (h.tail.drop _))
termination_by 3 * tokens.length
decreasing_by all_goals (try simp only [List.length_drop, List.length_cons]); omega

end

/-- The body of a routine or program is a list of statements. -/
theorem mentions_body {tokens : List Token} (h : Provides N tokens) :
    MentionOnly N (body finish tokens).value.script :=
  mentions_block _ (h.drop _)

/-! ## Declarations -/

/-- A constant is declared, which mentions nothing; its value may. -/
theorem mentions_constSection {tokens : List Token} (h : Provides N tokens) :
    MentionOnly N ((constSection finish tokens).value.flatMap ConstDeclaration.script) := by
  fun_induction constSection finish tokens with
  | case1 => exact .nil
  | case2 name rest _ equals value closed more ih =>
    have hvalue : MentionOnly N (ConstDeclaration.mk name.text value.value name.line).script := by
      refine AllSteps.append ?_ (.single (Action.mentions_of_none rfl))
      split
      · exact .single (Action.mentions_of_none rfl)
      · exact mentions_expression _ (h.tail.drop _)
    exact hvalue.append (ih (h.tail.drop _))
  | case3 => exact .nil

/-- A declaration of variables mentions nothing. -/
theorem mentions_variables (declarations : List VarDeclaration) :
    MentionOnly N (declarations.flatMap VarDeclaration.script) :=
  VarDeclaration.allSteps_scripts (fun _ _ => Action.mentions_of_none rfl) declarations

/-- Each of the local sections reads on where the one before ended. -/
theorem mentions_localSections {tokens : List Token} (h : Provides N tokens) :
    MentionOnly N (Node.scripts (localSections finish tokens).value) := by
  fun_induction localSections finish tokens with
  | case1 => exact .nil
  | case2 t rest _ one more ih => exact (mentions_variables _).append (ih (h.tail.drop _))
  | case3 t rest _ _ one more ih =>
    exact (mentions_constSection h.tail).append (ih (h.tail.drop _))
  | case4 => exact .nil

/-- What a routine has in front of its declarations mentions nothing. -/
theorem mentions_routine (routine : DeclaredRoutine) (parameters : List Parameter) :
    MentionOnly N (routine.script parameters) :=
  .cons (Action.mentions_of_none rfl) (routine.allSteps_head (Action.Mentions N)
    (fun _ => Action.mentions_of_none rfl) (Action.mentions_of_none rfl) parameters)

/-- The name of the routine may be made up, and declaring it mentions nothing. -/
theorem mentions_functionDeclaration (line : Int) {rest : List Token} (h : Provides N rest) :
    (functionDeclaration finish line rest).value.Mentions N :=
  (((mentions_routine _ _).append (mentions_localSections (h.drop _))).append
    (mentions_body (h.drop _))).append (.single (Action.mentions_of_none rfl))

theorem mentions_procedureDeclaration (line : Int) {rest : List Token} (h : Provides N rest) :
    (procedureDeclaration finish line rest).value.Mentions N :=
  (((mentions_routine _ _).append (mentions_localSections (h.drop _))).append
    (mentions_body (h.drop _))).append (.single (Action.mentions_of_none rfl))

/-- All declarations of a program mention texts of its identifiers only. -/
theorem mentions_declarations {tokens : List Token} (h : Provides N tokens) :
    MentionOnly N (Node.scripts (declarations finish tokens).value) := by
  fun_induction declarations finish tokens with
  | case1 => exact .nil
  | case2 t rest _ one more ih =>
    exact (mentions_constSection h.tail).append (ih (h.tail.drop _))
  | case3 t rest _ count ih => exact ih (h.tail.drop _)
  | case4 t rest _ one more ih => exact (mentions_variables _).append (ih (h.tail.drop _))
  | case5 t rest _ one more ih =>
    exact (mentions_functionDeclaration t.line h.tail).append (ih (h.tail.drop _))
  | case6 t rest _ one more ih =>
    exact (mentions_procedureDeclaration t.line h.tail).append (ih (h.tail.drop _))
  | case7 => exact .nil

/-- **The names that the tree of a source mentions are texts of its identifiers.** -/
theorem mentions_parse {source : String} (h : Provides N (Lexed.ofSource source).lexemes) :
    (parse (Lexed.ofSource source).tokens).value.toNode.Mentions N := by
  have hparse : parse (Lexed.ofSource source).tokens = program _ (Lexed.ofSource source).lexemes :=
    parse_mark ⟨"", _, _, _⟩ _
  rw [hparse]
  exact (mentions_declarations (h.drop _)).append (mentions_body (h.drop _))

end Grammar
end PascalCheck
