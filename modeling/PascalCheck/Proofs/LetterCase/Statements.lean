import PascalCheck.Proofs.Grammar.StatementReading
import PascalCheck.Proofs.LetterCase.Expressions

/-! # Reading of statements does not see the case of names

Lists are dealt with once for all kinds of items, in parentheses or not; the rules of the statements
follow, and then all of them by the measure of the reader. -/
namespace PascalCheck
namespace Grammar

variable {finish : EndMark}

/-! ## Lists -/

section
variable {α β γ : Type} {a : Assembly α β γ} {f : α → α} {g : γ → γ}

/-- What puts the names of an item in lower case and what does so for a whole list agree. -/
structure Assembly.FoldsBy (a : Assembly α β γ) (f : α → α) (g : γ → γ) : Prop where
  nil : g a.nil = a.nil
  cons : ∀ item list, g (a.cons item list) = a.cons (f item) (g list)

/-- Items are folded one by one. -/
theorem Assembly.items_foldsBy (f : α → α) : items.FoldsBy f (List.map f) :=
  ⟨rfl, fun _ _ => rfl⟩

/-- An item that may be missing is a list with at most one item. -/
theorem Assembly.optional_foldsBy (f : α → α) : optional.FoldsBy (List.map f) (List.map f) :=
  ⟨rfl, fun _ _ => List.map_append⟩

/-- Groups of items are put together after they are folded. -/
theorem Assembly.groups_foldsBy (f : α → α) : groups.FoldsBy (List.map f) (List.map f) :=
  ⟨rfl, fun _ _ => List.map_append⟩

variable {kind : TokenKind} {item : List Token → Step α} {more : List Token → Step γ}
  (hl : IsLoop kind a item more) (ha : a.FoldsBy f g)
  (hitem : ∀ tokens, item (tokens.map Token.foldName) = (item tokens).foldNames f)
include hl ha hitem

/-- **A list of any kind of items is read with their names in lower case**, if each item is. -/
theorem IsLoop.map_foldName (tokens : List Token) :
    more (tokens.map Token.foldName) = (more tokens).foldNames g := by
  induction hn : tokens.length using Nat.strongRecOn generalizing tokens with
  | ind n ih =>
    cases tokens with
    | nil => rw [List.map_nil, hl, Step.foldNames, ha.nil]; rfl
    | cons t rest =>
      rw [List.map_cons, hl (t.foldName :: _), hl (t :: rest)]
      simp only [Token.kind_foldName, hitem, Step.foldNames_value, Step.foldNames_used,
        ← List.map_drop]
      split
      · have hmore := ih (rest.drop (item rest).used).length (by simp at hn ⊢; omega) _ rfl
        simp only [hmore, Step.andThen_foldNames, Step.foldNames_value, ← ha.cons,
          Step.as_foldNames _ g, Step.past_foldNames]
      · rw [Step.foldNames, ha.nil]
        rfl

/-- So is a list in parentheses. -/
theorem parenthesized_map_foldName (tokens : List Token) :
    parenthesized finish a item more (tokens.map Token.foldName) =
      (parenthesized finish a item more tokens).foldNames g := by
  have hmore := hl.map_foldName ha hitem
  simp only [parenthesized, startsWith_map_foldName, ← List.map_drop]
  split
  · split
    · rw [expect_map_foldName]
      simp only [Step.andThen, Step.as, Step.foldNames, List.map_append, ha.nil]
      rfl
    · simp only [hitem, hmore, Step.past_foldNames, Step.foldNames_value, Step.foldNames_used,
        Step.andThen_foldNames, expect_map_foldName, ← ha.cons, Step.as_foldNames _ g]
  · simp [Step.foldNames, ha.nil]

end

/-- The name on the left of an assignment goes into the statement. -/
theorem assignment_map_foldName {name : Token} (h : name.kind = .identifier) (rest : List Token) :
    assignment finish name.foldName (rest.map Token.foldName) =
      (assignment finish name rest).foldNames Node.foldNames := by
  simp only [assignment, startsWith_map_foldName]
  split <;>
    simp only [← List.map_drop, expression_map_foldName, Step.past_foldNames,
      Step.foldNames_value, Step.foldNames_used, expect_map_foldName, Step.andThen_foldNames,
      Step.faultless_andThen_foldNames, Token.text_foldName h, Token.line_foldName,
      Step.as_foldNames _ Expr.foldNames] <;>
    rfl

/-- The name of a call goes into the statement, whatever the case of the names in its arguments. -/
theorem procedureCall_map_foldName {name : Token} (h : name.kind = .identifier)
    (rest : List Token) : procedureCall finish name.foldName (rest.map Token.foldName) =
      (procedureCall finish name rest).foldNames Node.foldNames := by
  simp only [procedureCall, startsWith_map_foldName, ← List.map_drop, arguments_map_foldName,
    Step.past_foldNames, Step.foldNames_value, Step.foldNames_used, expect_map_foldName,
    Step.andThen_foldNames, Token.text_foldName h, Token.line_foldName]
  split <;> rfl

/-- The width and the decimals of what is written are expressions. -/
theorem format_map_foldName (tokens : List Token) : format finish (tokens.map Token.foldName) =
    (format finish tokens).foldNames Expr.foldNames := by
  simp only [format, startsWith_map_foldName, ← List.map_drop, expression_map_foldName,
    Step.past_foldNames]
  split <;> rfl

theorem writeArgument_map_foldName (tokens : List Token) :
    writeArgument finish (tokens.map Token.foldName) =
      (writeArgument finish tokens).foldNames WriteArgument.foldNames := by
  simp only [writeArgument, expression_map_foldName, startsWith_map_foldName, ← List.map_drop,
    format_map_foldName, Step.foldNames_value, Step.foldNames_used, Step.andThen_foldNames]
  split <;> rfl

/-- The word that says how to write is a keyword, which stays as it is. -/
theorem writeStatement_map_foldName (word : Token) (rest : List Token) :
    writeStatement finish word (rest.map Token.foldName) =
      (writeStatement finish word rest).foldNames Node.foldNames := by
  rw [writeStatement_eq, writeStatement_eq, parenthesized_map_foldName isLoop_moreWriteArguments
    (Assembly.items_foldsBy _) writeArgument_map_foldName]
  rfl

/-- A target is a name, or the element of a name with its index. -/
theorem target_map_foldName (tokens : List Token) : target finish (tokens.map Token.foldName) =
    (target finish tokens).foldNames (List.map Target.foldNames) := by
  cases tokens with
  | nil => rfl
  | cons t rest =>
    by_cases h : t.kind = .identifier
    · have h' : t.foldName.kind = .identifier := by rw [Token.kind_foldName, h]
      simp only [target, List.map_cons, expect_cons h, expect_cons h', List.drop_succ_cons,
        List.drop_zero, startsWith_map_foldName, ← List.map_drop, expression_map_foldName,
        Step.past_foldNames, Step.foldNames_value, Step.foldNames_used, expect_map_foldName,
        Step.andThen_foldNames, Step.faultless_andThen_foldNames, Token.text_foldName h,
        Token.line_foldName]
      split <;> rfl
    · have hfault := @refuse_map_foldName finish (.token .identifier) (t :: rest)
      rw [List.map_cons] at hfault
      simp only [target, List.map_cons, expect, Token.kind_foldName, h, if_false, hfault]
      rfl

/-- The word that says how to read is a keyword, which stays as it is. -/
theorem readStatement_map_foldName (word : Token) (rest : List Token) :
    readStatement finish word (rest.map Token.foldName) =
      (readStatement finish word rest).foldNames Node.foldNames := by
  rw [readStatement_eq, readStatement_eq, parenthesized_map_foldName isLoop_moreTargets
    (Assembly.optional_foldsBy _) target_map_foldName]
  rfl

/-- What stands between two statements has no names. -/
theorem separator_map_foldName (tokens : List Token) :
    separator finish (tokens.map Token.foldName) = (separator finish tokens).foldNames id := by
  simp only [separator, startsWith_map_foldName, next_map_foldName, Token.kind_foldName,
    refuse_map_foldName]
  split
  · rfl
  · split <;> rfl

theorem direction_map_foldName (tokens : List Token) :
    direction finish (tokens.map Token.foldName) = (direction finish tokens).foldNames id := by
  simp only [direction, startsWith_map_foldName, refuse_map_foldName]
  split
  · rfl
  · split <;> rfl

/-- Either end of the range of a loop may be missing. -/
theorem bound_map_foldName (tokens : List Token) :
    bound finish (tokens.map Token.foldName) =
      (bound finish tokens).foldNames Expr.foldNames := by
  simp only [bound, startsWith_map_foldName, expression_map_foldName]
  split <;> rfl

/-- What is left out where a branch is missing has no names. -/
theorem ite_absent_foldNames (c : Prop) [Decidable c] (step : Step Node) :
    (if c then (⟨.absent, 0, []⟩ : Step Node) else step.foldNames Node.foldNames) =
      (if c then (⟨.absent, 0, []⟩ : Step Node) else step).foldNames Node.foldNames := by
  split <;> rfl

mutual

/-- **Statements are read in any letter case of their names.** -/
theorem statement_map_foldName (tokens : List Token) :
    statement finish (tokens.map Token.foldName) =
      (statement finish tokens).foldNames Node.foldNames := by
  match tokens with
  | [] => simp [statement, Step.foldNames]
  | t :: rest =>
    rw [List.map_cons, statement, statement, Token.kind_foldName]
    split
    · rfl
    · rw [statementFrom_map_foldName t rest, Step.past_foldNames]
termination_by 3 * tokens.length
decreasing_by simp only [List.length_cons]; omega

/-- The first token decides by its kind which statement it is. -/
theorem statementFrom_map_foldName (first : Token) (rest : List Token) :
    statementFrom finish first.foldName (rest.map Token.foldName) =
      (statementFrom finish first rest).foldNames Node.foldNames := by
  rw [statementFrom, statementFrom, Token.kind_foldName]
  split
  next h =>
    simp only [startsWith_map_foldName]
    split
    · exact assignment_map_foldName h rest
    · exact procedureCall_map_foldName h rest
  · rw [Token.line_foldName, ifStatement_map_foldName]
  · rw [Token.line_foldName, whileStatement_map_foldName]
  · rw [Token.line_foldName, forStatement_map_foldName]
  · rw [Token.line_foldName, repeatStatement_map_foldName]
  iterate 2
    next h => rw [Token.foldName_of_ne (by simp [h]), writeStatement_map_foldName]
  iterate 2
    next h => rw [Token.foldName_of_ne (by simp [h]), readStatement_map_foldName]
  · simp only [block_map_foldName rest, Token.line_foldName]
    rfl
  · rfl
termination_by 3 * rest.length + 2

theorem ifStatement_map_foldName (line : Int) (rest : List Token) :
    ifStatement finish line (rest.map Token.foldName) =
      (ifStatement finish line rest).foldNames Node.foldNames := by
  rw [ifStatement, ifStatement]
  simp only [expression_map_foldName, Step.foldNames_value, Step.foldNames_used, ← List.map_drop,
    expect_map_foldName, Step.andThen_foldNames, startsWith_map_foldName, ite_absent_foldNames,
    statement_map_foldName (rest.drop _), Step.past_foldNames]
  split <;> split <;> rfl
termination_by 3 * rest.length + 1
decreasing_by all_goals (try simp only [List.length_drop]); omega

theorem whileStatement_map_foldName (line : Int) (rest : List Token) :
    whileStatement finish line (rest.map Token.foldName) =
      (whileStatement finish line rest).foldNames Node.foldNames := by
  rw [whileStatement, whileStatement]
  simp only [expression_map_foldName, Step.foldNames_value, Step.foldNames_used, ← List.map_drop,
    expect_map_foldName, Step.andThen_foldNames, statement_map_foldName (rest.drop _)]
  rfl
termination_by 3 * rest.length + 1
decreasing_by simp only [List.length_drop]; omega

/-- The counter of a loop goes into the statement with the names of its range and its body. -/
theorem forStatement_map_foldName (line : Int) (rest : List Token) :
    forStatement finish line (rest.map Token.foldName) =
      (forStatement finish line rest).foldNames Node.foldNames := by
  rw [forStatement, forStatement]
  simp only [expression_map_foldName, Step.foldNames_value, Step.foldNames_used, ← List.map_drop,
    expect_map_foldName, Step.andThen_foldNames, direction_map_foldName, bound_map_foldName,
    statement_map_foldName (rest.drop _), nameOr_expect_foldName Text.toLower_empty]
  rfl
termination_by 3 * rest.length + 1
decreasing_by simp only [List.length_drop]; omega

theorem repeatStatement_map_foldName (line : Int) (rest : List Token) :
    repeatStatement finish line (rest.map Token.foldName) =
      (repeatStatement finish line rest).foldNames Node.foldNames := by
  rw [repeatStatement, repeatStatement]
  simp only [statements_map_foldName rest, expression_map_foldName, Step.foldNames_value,
    Step.foldNames_used, ← List.map_drop, expect_map_foldName, Step.andThen_foldNames]
  rfl
termination_by 3 * rest.length + 1

theorem block_map_foldName (rest : List Token) :
    block finish (rest.map Token.foldName) =
      (block finish rest).foldNames Node.foldAllNames := by
  rw [block, block]
  simp only [statements_map_foldName rest, Step.foldNames_value, Step.foldNames_used,
    ← List.map_drop, expect_map_foldName, Step.andThen_foldNames]
  rfl
termination_by 3 * rest.length + 1

/-- Statements are read until something else comes, which the kinds of the tokens tell. -/
theorem statements_map_foldName (tokens : List Token) :
    statements finish (tokens.map Token.foldName) =
      (statements finish tokens).foldNames Node.foldAllNames := by
  match tokens with
  | [] => simp [statements, Step.foldNames]
  | t :: rest =>
    rw [List.map_cons, statements, statements, Token.kind_foldName]
    split
    · rfl
    · split
      · rw [statements_map_foldName rest, Step.past_foldNames]
      · simp only [statementFrom_map_foldName t rest, Step.foldNames_value, Step.foldNames_used,
          ← List.map_drop, separator_map_foldName, Step.andThen_foldNames,
          statements_map_foldName (rest.drop _), Node.isAbsent_foldNames]
        split <;> rfl
termination_by 3 * tokens.length
decreasing_by all_goals (try simp only [List.length_drop, List.length_cons]); omega

end

end Grammar
end PascalCheck
