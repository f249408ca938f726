import PascalCheck.Proofs.LetterCase.Tree

/-! # Reading of expressions does not see the case of names

Each rule of the reader, on tokens with their names in lower case, reads what it reads on the tokens
themselves, with the names in lower case. -/
namespace PascalCheck
namespace Grammar

variable {finish : EndMark}

/-- A sign is no name. -/
theorem sign?_map_foldName (tokens : List Token) :
    sign? (tokens.map Token.foldName) = sign? tokens := by
  cases tokens with
  | nil => rfl
  | cons t rest =>
    simp only [List.map_cons, sign?, Token.kind_foldName]
    split
    next h =>
      rw [Token.foldName_of_ne]
      rintro hid
      simp [hid] at h
    · rfl

/-- A sign adds no name to the expression behind it. -/
theorem foldNames_signed (sign : Option Token) (e : Expr) :
    signed sign e.foldNames = (signed sign e).foldNames := by
  unfold signed
  split
  · split <;> rfl
  · rfl

/-- The operator of two operands is no name, either. -/
theorem binary_foldName {t : Token} (h : t.kind ≠ .identifier) (left right : Expr) :
    Expr.binary t.foldName.text left.foldNames right.foldNames t.foldName.line =
      (Expr.binary t.text left right t.line).foldNames := by
  rw [Token.foldName_of_ne h]
  rfl

mutual

/-- **Expressions are read in any letter case of their names.** -/
theorem expression_map_foldName (tokens : List Token) :
    expression finish (tokens.map Token.foldName) =
      (expression finish tokens).foldNames Expr.foldNames := by
  rw [expression, expression, simple_map_foldName, Step.foldNames_value, Step.foldNames_used,
    ← List.map_drop, relations_map_foldName, Step.andThen_foldNames]
termination_by 5 * tokens.length + 3
decreasing_by all_goals (try simp only [List.length_drop]); omega

/-- The expression in front is carried along with its names. -/
theorem relations_map_foldName (left : Expr) (tokens : List Token) :
    relations finish left.foldNames (tokens.map Token.foldName) =
      (relations finish left tokens).foldNames Expr.foldNames := by
  match tokens with
  | [] => simp [relations, Step.foldNames]
  | t :: rest =>
    rw [List.map_cons, relations, relations, Token.kind_foldName]
    split
    next h =>
      have hoperator : t.kind ≠ .identifier := by simp [h]
      simp only [simple_map_foldName rest, Step.foldNames_value, binary_foldName hoperator,
        Step.foldNames_used, ← List.map_drop]
      rw [relations_map_foldName, Step.andThen_foldNames, Step.past_foldNames]
    · rfl
termination_by 5 * tokens.length
decreasing_by all_goals (try simp only [List.length_drop, List.length_cons]); omega

/-- Reading the parts of a sum does not see the case of names. -/
theorem simple_map_foldName (tokens : List Token) :
    simple finish (tokens.map Token.foldName) =
      (simple finish tokens).foldNames Expr.foldNames := by
  rw [simple, simple, sign?_map_foldName]
  simp only [← List.map_drop, term_map_foldName (tokens.drop _), Step.past_foldNames,
    Step.foldNames_value, Step.foldNames_used, foldNames_signed]
  rw [sums_map_foldName, Step.andThen_foldNames]
termination_by 5 * tokens.length + 2
decreasing_by all_goals (try simp only [List.length_drop]); omega

theorem sums_map_foldName (left : Expr) (tokens : List Token) :
    sums finish left.foldNames (tokens.map Token.foldName) =
      (sums finish left tokens).foldNames Expr.foldNames := by
  match tokens with
  | [] => simp [sums, Step.foldNames]
  | t :: rest =>
    rw [List.map_cons, sums, sums, Token.kind_foldName]
    split
    next h =>
      have hoperator : t.kind ≠ .identifier := by rintro hid; simp [hid, isAdding] at h
      simp only [term_map_foldName rest, Step.foldNames_value, binary_foldName hoperator,
        Step.foldNames_used, ← List.map_drop]
      rw [sums_map_foldName, Step.andThen_foldNames, Step.past_foldNames]
    · rfl
termination_by 5 * tokens.length
decreasing_by all_goals (try simp only [List.length_drop, List.length_cons]); omega

/-- Reading the parts of a product does not see the case of names. -/
theorem term_map_foldName (tokens : List Token) :
    term finish (tokens.map Token.foldName) = (term finish tokens).foldNames Expr.foldNames := by
  rw [term, term, factor_map_foldName, Step.foldNames_value, Step.foldNames_used, ← List.map_drop,
    products_map_foldName, Step.andThen_foldNames]
termination_by 5 * tokens.length + 1
decreasing_by all_goals (try simp only [List.length_drop]); omega

theorem products_map_foldName (left : Expr) (tokens : List Token) :
    products finish left.foldNames (tokens.map Token.foldName) =
      (products finish left tokens).foldNames Expr.foldNames := by
  match tokens with
  | [] => simp [products, Step.foldNames]
  | t :: rest =>
    rw [List.map_cons, products, products, Token.kind_foldName]
    split
    next h =>
      have hoperator : t.kind ≠ .identifier := by rintro hid; simp [hid, isMultiplying] at h
      simp only [factor_map_foldName rest, Step.foldNames_value, binary_foldName hoperator,
        Step.foldNames_used, ← List.map_drop]
      rw [products_map_foldName, Step.andThen_foldNames, Step.past_foldNames]
    · rfl
termination_by 5 * tokens.length
decreasing_by all_goals (try simp only [List.length_drop, List.length_cons]); omega

/-- A factor may be a name, which is carried along, or have names inside. -/
theorem factor_map_foldName (tokens : List Token) :
    factor finish (tokens.map Token.foldName) =
      (factor finish tokens).foldNames Expr.foldNames := by
  match tokens with
  | [] => simp [factor, refuse, next, Step.as, Step.foldNames, GrammarFault.foldName]; rfl
  | t :: rest =>
    rw [List.map_cons, factor, factor, Token.kind_foldName]
    split
    iterate 5
      next h =>
        rw [Token.foldName_of_ne (by simp [h])]
        rfl
    next h =>
      simp only [startsWith_map_foldName, ← List.map_drop,
        arguments_map_foldName (rest.drop 1), expression_map_foldName (rest.drop 1),
        Step.past_foldNames, Step.foldNames_value, Step.foldNames_used, expect_map_foldName,
        Step.andThen_foldNames, Token.text_foldName h, Token.line_foldName]
      split
      · rfl
      · split <;> rfl
    next h =>
      simp only [factor_map_foldName rest, Step.foldNames_value, Token.line_foldName]
      rfl
    next h =>
      simp only [expression_map_foldName rest, Step.foldNames_value, Step.foldNames_used,
        ← List.map_drop, expect_map_foldName, Step.andThen_foldNames]
      rfl
    next hname _ _ =>
      rw [← List.map_cons, refuse_map_foldName, Token.foldName_of_ne hname]
      rfl
termination_by 5 * tokens.length
decreasing_by all_goals (try simp only [List.length_drop, List.length_cons]); omega

/-- Arguments are read one by one, each with its names. -/
theorem arguments_map_foldName (tokens : List Token) :
    arguments finish (tokens.map Token.foldName) =
      (arguments finish tokens).foldNames Expr.foldAllNames := by
  rw [arguments, arguments, startsWith_map_foldName]
  split
  · rfl
  · simp only [expression_map_foldName tokens, Step.foldNames_value, Step.foldNames_used,
      ← List.map_drop]
    rw [moreArguments_map_foldName, Step.andThen_foldNames]
    rfl
termination_by 5 * tokens.length + 4
decreasing_by all_goals (try simp only [List.length_drop]); omega

theorem moreArguments_map_foldName (tokens : List Token) :
    moreArguments finish (tokens.map Token.foldName) =
      (moreArguments finish tokens).foldNames Expr.foldAllNames := by
  match tokens with
  | [] => simp [moreArguments, Step.foldNames]
  | t :: rest =>
    rw [List.map_cons, moreArguments, moreArguments, Token.kind_foldName]
    split
    · simp only [expression_map_foldName rest, Step.foldNames_value, Step.foldNames_used,
        ← List.map_drop]
      rw [moreArguments_map_foldName, Step.andThen_foldNames]
      rfl
    · rfl
termination_by 5 * tokens.length
decreasing_by all_goals (try simp only [List.length_drop, List.length_cons]); omega

end

end Grammar
end PascalCheck
