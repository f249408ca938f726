import PascalCheck.Proofs.Grammar.NamedTypes
import PascalCheck.Proofs.Grammar.DeclarationReading

/-! # How far a rule reads, and how many faults it finds

No rule of the reader uses more tokens than there are, and none finds more than seven faults for
each token that it uses, apart from some that it finds without using any: its allowance.  Seven is
what the head of a function costs at worst, where its word is used and everything else is missing.

Allowances add up, and a token that is used pays for seven faults (`IsBounded.andThen`,
`IsBounded.past`).  They are integers, since a token that is known to be there may pay for more than
what is missing next to it. -/
namespace PascalCheck

namespace Step
variable {α β : Type}

/-- The step uses no more tokens than there are, and finds at most seven faults for each token it
uses, and the allowed ones. -/
structure IsBounded (step : Step α) (allowance : Int) (tokens : List Token) : Prop where
  used_le : step.used ≤ tokens.length
  faults_le : (step.faults.length : Int) ≤ 7 * step.used + allowance

namespace IsBounded
variable {first : Step α} {second : Step β} {step : Step α} {a b : Int} {tokens : List Token}

theorem nothing (value : α) (tokens : List Token) :
    (⟨value, 0, []⟩ : Step α).IsBounded 0 tokens :=
  ⟨Nat.zero_le _, Int.le_refl 0⟩

theorem mono (h : step.IsBounded a tokens) (hab : a ≤ b) : step.IsBounded b tokens :=
  ⟨h.used_le, Int.le_trans h.faults_le (Int.add_le_add_left hab _)⟩

theorem as (h : step.IsBounded a tokens) (value : β) : (step.as value).IsBounded a tokens :=
  ⟨h.used_le, h.faults_le⟩

/-- Allowances add up. -/
theorem andThen (h : first.IsBounded a tokens)
    (h' : second.IsBounded b (tokens.drop first.used)) :
    (first.andThen second).IsBounded (a + b) tokens := by
  have hused := h'.used_le
  rw [List.length_drop] at hused
  have hfirst := h.used_le
  have hfaults := h.faults_le
  have hfaults' := h'.faults_le
  constructor
  · rw [andThen_used]
    omega
  · rw [andThen_faults, andThen_used, List.length_append]
    omega

/-- A token that is used pays for seven faults. -/
theorem past {t : Token} {rest : List Token} (h : step.IsBounded a rest) :
    (step.past 1).IsBounded (a - 7) (t :: rest) := by
  have hused := h.used_le
  have hfaults := h.faults_le
  constructor
  · rw [past_used, List.length_cons]
    omega
  · rw [past_faults, past_used]
    omega

/-- Tokens that are used make no faults. -/
theorem past_of_le {count : Nat} (hcount : count ≤ tokens.length)
    (h : step.IsBounded a (tokens.drop count)) : (step.past count).IsBounded a tokens := by
  have hused := h.used_le
  have hfaults := h.faults_le
  rw [List.length_drop] at hused
  constructor
  · rw [past_used]
    omega
  · rw [past_faults, past_used]
    omega

end IsBounded
end Step

namespace Grammar

open Step

variable {finish : EndMark}

/-! ## Single tokens -/

/-- A refusal is one fault and uses nothing. -/
theorem isBounded_refuse (demand : Demand) (tokens left : List Token) :
    (refuse finish demand tokens).IsBounded 1 left :=
  ⟨Nat.zero_le _, Int.le_refl 1⟩

/-- One token that is used. -/
theorem isBounded_one {α : Type} (value : α) (t : Token) (rest : List Token) :
    (⟨value, 1, []⟩ : Step α).IsBounded (-7) (t :: rest) :=
  ⟨Nat.succ_le_succ (Nat.zero_le _), Int.le_refl 0⟩

theorem isBounded_accept (kind : TokenKind) (tokens : List Token) :
    (accept kind tokens).IsBounded 0 tokens := by
  cases tokens with
  | nil => exact .nothing false []
  | cons t rest =>
    rw [accept]
    split
    · exact (isBounded_one true t rest).mono (by omega)
    · exact .nothing false (t :: rest)

/-- What is expected is used, or its absence is the one fault. -/
theorem isBounded_expect (kind : TokenKind) (tokens : List Token) :
    (expect finish kind tokens).IsBounded 1 tokens := by
  cases tokens with
  | nil => exact (isBounded_refuse (.token kind) [] []).as none
  | cons t rest =>
    rw [expect]
    split
    · exact (isBounded_one (some t) t rest).mono (by omega)
    · exact (isBounded_refuse (.token kind) (t :: rest) _).as none

/-- Tokens that are passed over. -/
theorem isBounded_takeWhile (p : Token → Bool) (tokens : List Token) :
    (⟨(), (tokens.takeWhile p).length, []⟩ : Step Unit).IsBounded 0 tokens :=
  ⟨(List.takeWhile_sublist p).length_le, Int.add_nonneg (by omega) (Int.le_refl 0)⟩

/-- What stands behind a token that is there. -/
theorem isBounded_past_of_startsWith {α : Type} {kind : TokenKind} {step : Step α} {a : Int}
    {tokens : List Token} (hk : kind ≠ .endOfInput) (hs : startsWith kind tokens = true)
    (h : step.IsBounded a (tokens.drop 1)) : (step.past 1).IsBounded (a - 7) tokens := by
  obtain ⟨t, rest, -, rfl⟩ := (startsWith_iff hk).mp hs
  exact h.past

/-! ## Lists -/

section Lists
variable {α β γ : Type} {kind : TokenKind} {a : Assembly α β γ} {item : List Token → Step α}
  {more : List Token → Step γ}

/-- A separator pays for an item. -/
theorem IsLoop.isBounded (hl : IsLoop kind a item more)
    (hitem : ∀ tokens, (item tokens).IsBounded 7 tokens) (tokens : List Token) :
    (more tokens).IsBounded 0 tokens := by
  -- The induction is on the number of tokens, since an item may use any number of them.
  generalize hn : tokens.length = n
  induction n using Nat.strongRecOn generalizing tokens with
  | ind n ih =>
    rw [hl tokens]
    cases tokens with
    | nil => exact .nothing a.nil []
    | cons t rest =>
      dsimp only
      split
      · refine (((hitem rest).andThen (ih _ ?_ _ rfl)).as _).past
        rw [List.length_cons] at hn
        rw [List.length_drop]
        omega
      · exact .nothing a.nil (t :: rest)

/-- The parenthesis pays for the first item, and for the one that closes the list. -/
theorem isBounded_parenthesized (hl : IsLoop kind a item more)
    (hitem : ∀ tokens, (item tokens).IsBounded 6 tokens) (tokens : List Token) :
    (parenthesized finish a item more tokens).IsBounded 0 tokens := by
  have hmore := hl.isBounded fun tokens => (hitem tokens).mono (by omega)
  rw [parenthesized]
  split
  next hopen =>
    dsimp only
    split
    · obtain ⟨t, rest, -, rfl⟩ := (startsWith_iff (by decide)).mp hopen
      have hlisted := isBounded_one a.nil t rest
      exact ((hlisted.andThen (isBounded_expect .rightParen _)).as a.nil).mono (by omega)
    · have hfirst := isBounded_past_of_startsWith (by decide) hopen (hitem (tokens.drop 1))
      exact ((hfirst.andThen (hmore _)).as _).andThen (isBounded_expect _ _) |>.as _
  next => exact .nothing a.nil tokens

end Lists

/-! ## Expressions -/

mutual

/-- **An expression that is missing is one fault.** -/
theorem isBounded_expression (tokens : List Token) :
    (expression finish tokens).IsBounded 1 tokens := by
  rw [expression]
  exact (isBounded_simple tokens).andThen (isBounded_relations _ _)
termination_by 5 * tokens.length + 3
decreasing_by all_goals (try simp only [List.length_drop]); omega

theorem isBounded_relations (left : Expr) (tokens : List Token) :
    (relations finish left tokens).IsBounded 0 tokens := by
  match tokens with
  | [] =>
    rw [relations]
    exact .nothing left []
  | t :: rest =>
    rw [relations]
    split
    · exact (((isBounded_simple rest).andThen (isBounded_relations _ _)).past).mono (by omega)
    · exact .nothing left (t :: rest)
termination_by 5 * tokens.length
decreasing_by all_goals (try simp only [List.length_drop, List.length_cons]); omega

theorem isBounded_simple (tokens : List Token) : (simple finish tokens).IsBounded 1 tokens := by
  have hsign : (sign? tokens).toList.length ≤ tokens.length := by
    cases tokens with
    | nil => exact Nat.le_refl 0
    | cons t rest => exact Nat.le_trans Option.length_toList_le (Nat.succ_le_succ (Nat.zero_le _))
  rw [simple]
  exact ((isBounded_term _).past_of_le hsign).andThen (isBounded_sums _ _)
termination_by 5 * tokens.length + 2
decreasing_by all_goals (try simp only [List.length_drop]); omega

theorem isBounded_sums (left : Expr) (tokens : List Token) :
    (sums finish left tokens).IsBounded 0 tokens := by
  match tokens with
  | [] =>
    rw [sums]
    exact .nothing left []
  | t :: rest =>
    rw [sums]
    split
    · exact (((isBounded_term rest).andThen (isBounded_sums _ _)).past).mono (by omega)
    · exact .nothing left (t :: rest)
termination_by 5 * tokens.length
decreasing_by all_goals (try simp only [List.length_drop, List.length_cons]); omega

theorem isBounded_term (tokens : List Token) : (term finish tokens).IsBounded 1 tokens := by
  rw [term]
  exact (isBounded_factor tokens).andThen (isBounded_products _ _)
termination_by 5 * tokens.length + 1
decreasing_by all_goals (try simp only [List.length_drop]); omega

theorem isBounded_products (left : Expr) (tokens : List Token) :
    (products finish left tokens).IsBounded 0 tokens := by
  match tokens with
  | [] =>
    rw [products]
    exact .nothing left []
  | t :: rest =>
    rw [products]
    split
    · exact (((isBounded_factor rest).andThen (isBounded_products _ _)).past).mono (by omega)
    · exact .nothing left (t :: rest)
termination_by 5 * tokens.length
decreasing_by all_goals (try simp only [List.length_drop, List.length_cons]); omega

/-- A factor may be missing altogether; whatever else is missing in it comes behind a token that
pays. -/
theorem isBounded_factor (tokens : List Token) : (factor finish tokens).IsBounded 1 tokens := by
  match tokens with
  | [] =>
    rw [factor]
    exact (isBounded_refuse .factor [] []).as _
  | t :: rest =>
    rw [factor]
    split
    iterate 5 exact (isBounded_one _ t rest).mono (by omega)
    · split
      next hopen =>
        have harguments := isBounded_past_of_startsWith (by decide) hopen
          (isBounded_arguments (rest.drop 1))
        exact ((harguments.andThen (isBounded_expect _ _)).as _).past.mono (by omega)
      next =>
        split
        next hopen =>
          have hindex := isBounded_past_of_startsWith (by decide) hopen
            (isBounded_expression (rest.drop 1))
          exact ((hindex.andThen (isBounded_expect _ _)).as _).past.mono (by omega)
        next => exact (isBounded_one _ t rest).mono (by omega)
    · exact ((isBounded_factor rest).as _).past.mono (by omega)
    · exact (((isBounded_expression rest).andThen (isBounded_expect _ _)).as _).past.mono (by omega)
    · refine ((isBounded_refuse .factor (t :: rest) _).as _).past_of_le ?_
      split
      · exact Nat.zero_le _
      · exact Nat.succ_le_succ (Nat.zero_le _)
termination_by 5 * tokens.length
decreasing_by all_goals (try simp only [List.length_drop, List.length_cons]); omega

theorem isBounded_arguments (tokens : List Token) :
    (arguments finish tokens).IsBounded 1 tokens := by
  rw [arguments]
  split
  · exact (IsBounded.nothing [] tokens).mono (by omega)
  · exact ((isBounded_expression tokens).andThen (isBounded_moreArguments _)).as _
termination_by 5 * tokens.length + 4
decreasing_by all_goals (try simp only [List.length_drop]); omega

theorem isBounded_moreArguments (tokens : List Token) :
    (moreArguments finish tokens).IsBounded 0 tokens := by
  match tokens with
  | [] =>
    rw [moreArguments]
    exact .nothing [] []
  | t :: rest =>
    rw [moreArguments]
    split
    · exact (((isBounded_expression rest).andThen (isBounded_moreArguments _)).as _).past.mono
        (by omega)
    · exact .nothing [] (t :: rest)
termination_by 5 * tokens.length
decreasing_by all_goals (try simp only [List.length_drop, List.length_cons]); omega

end

/-! ## Statements -/

/-- An index in brackets; the bracket pays for what is missing behind it. -/
theorem isBounded_index {tokens : List Token} (hopen : startsWith .leftBracket tokens = true) :
    let index := (expression finish (tokens.drop 1)).past 1
    (index.andThen (expect finish .rightBracket (tokens.drop index.used))).IsBounded (-5) tokens :=
  (isBounded_past_of_startsWith (by decide) hopen (isBounded_expression (tokens.drop 1))).andThen
    (isBounded_expect _ _)

/-- The sign and the value of an assignment may be missing. -/
theorem isBounded_assignment (name : Token) (rest : List Token) :
    (assignment finish name rest).IsBounded 2 rest := by
  have hindex : (if startsWith .leftBracket rest then
      let index := (expression finish (rest.drop 1)).past 1
      (index.andThen (expect finish .rightBracket (rest.drop index.used))).as index.value
      else ⟨.absent, 0, []⟩ : Step Expr).IsBounded 0 rest := by
    split
    next hopen => exact ((isBounded_index hopen).as _).mono (by omega)
    next => exact .nothing Expr.absent rest
  exact ((hindex.andThen (isBounded_expect _ _)).andThen (isBounded_expression _)).as _

/-- A call finds faults behind its opening parenthesis only. -/
theorem isBounded_procedureCall (name : Token) (rest : List Token) :
    (procedureCall finish name rest).IsBounded 0 rest := by
  rw [procedureCall]
  split
  next hopen =>
    have harguments := isBounded_past_of_startsWith (by decide) hopen
      (@isBounded_arguments finish (rest.drop 1))
    exact ((harguments.andThen (isBounded_expect _ _)).as _).mono (by omega)
  next => exact .nothing _ rest

theorem isBounded_format (tokens : List Token) : (format finish tokens).IsBounded 0 tokens := by
  rw [format]
  split
  next hcolon =>
    exact (isBounded_past_of_startsWith (by decide) hcolon
      (isBounded_expression (tokens.drop 1))).mono (by omega)
  next => exact .nothing Expr.absent tokens

/-- The value of an argument may be missing; a format comes behind its colon. -/
theorem isBounded_writeArgument (tokens : List Token) :
    (writeArgument finish tokens).IsBounded 1 tokens := by
  have hvalue := @isBounded_expression finish tokens
  rw [writeArgument]
  dsimp only
  split
  · exact ((hvalue.andThen (isBounded_format _)).andThen (isBounded_format _)).as _
  · exact hvalue.as _

theorem isBounded_writeStatement (word : Token) (rest : List Token) :
    (writeStatement finish word rest).IsBounded 0 rest := by
  rw [writeStatement_eq]
  exact (isBounded_parenthesized isLoop_moreWriteArguments
    (fun tokens => (isBounded_writeArgument tokens).mono (by omega)) rest).as _

/-- A place to read into may be missing, and an index comes behind its bracket. -/
theorem isBounded_target (tokens : List Token) : (target finish tokens).IsBounded 1 tokens := by
  have hname := @isBounded_expect finish .identifier tokens
  rw [target]
  dsimp only
  split
  · exact hname.as []
  · split
    next hopen => exact ((hname.andThen (isBounded_index hopen)).as _).mono (by omega)
    next => exact hname.as _

theorem isBounded_readStatement (word : Token) (rest : List Token) :
    (readStatement finish word rest).IsBounded 0 rest := by
  rw [readStatement_eq]
  exact (isBounded_parenthesized isLoop_moreTargets
    (fun tokens => (isBounded_target tokens).mono (by omega)) rest).as _

/-- The next token is used, or left. -/
theorem isBounded_of_startsWith {α : Type} {kind : TokenKind} (value : α) {tokens : List Token}
    (hk : kind ≠ .endOfInput) (hs : startsWith kind tokens = true) :
    (⟨value, 1, []⟩ : Step α).IsBounded (-7) tokens := by
  obtain ⟨t, rest, -, rfl⟩ := (startsWith_iff hk).mp hs
  exact isBounded_one value t rest

theorem isBounded_separator (tokens : List Token) :
    (separator finish tokens).IsBounded 1 tokens := by
  rw [separator]
  split
  next hsemicolon => exact (isBounded_of_startsWith () (by decide) hsemicolon).mono (by omega)
  next =>
    split
    · exact (IsBounded.nothing () tokens).mono (by omega)
    · exact isBounded_refuse .separator tokens tokens

theorem isBounded_direction (tokens : List Token) :
    (direction finish tokens).IsBounded 1 tokens := by
  rw [direction]
  split
  next hdown => exact (isBounded_of_startsWith true (by decide) hdown).mono (by omega)
  next =>
    split
    next hup => exact (isBounded_of_startsWith false (by decide) hup).mono (by omega)
    next => exact (isBounded_refuse .direction tokens tokens).as false

/-- A bound costs nothing where it is left out in silence. -/
theorem isBounded_bound (tokens : List Token) : (bound finish tokens).IsBounded 1 tokens := by
  rw [bound]
  split
  · exact (IsBounded.nothing Expr.absent tokens).mono (by omega)
  · exact isBounded_expression tokens

mutual

/-- **The first token of a statement pays for all that is missing in it.** -/
theorem isBounded_statement (tokens : List Token) :
    (statement finish tokens).IsBounded 0 tokens := by
  match tokens with
  | [] =>
    rw [statement]
    exact .nothing Node.absent []
  | t :: rest =>
    rw [statement]
    split
    · exact .nothing Node.absent (t :: rest)
    · exact (isBounded_statementFrom t rest).past.mono (by omega)
termination_by 3 * tokens.length
decreasing_by simp only [List.length_cons]; omega

/-- Most can be missing in a counting loop: six things besides the statement that it repeats. -/
theorem isBounded_statementFrom (first : Token) (rest : List Token) :
    (statementFrom finish first rest).IsBounded 6 rest := by
  rw [statementFrom]
  split
  · split
    · exact (isBounded_assignment first rest).mono (by omega)
    · exact (isBounded_procedureCall first rest).mono (by omega)
  · exact (isBounded_ifStatement first.line rest).mono (by omega)
  · exact (isBounded_whileStatement first.line rest).mono (by omega)
  · exact isBounded_forStatement first.line rest
  · exact (isBounded_repeatStatement first.line rest).mono (by omega)
  · exact (isBounded_writeStatement first rest).mono (by omega)
  · exact (isBounded_writeStatement first rest).mono (by omega)
  · exact (isBounded_readStatement first rest).mono (by omega)
  · exact (isBounded_readStatement first rest).mono (by omega)
  · exact ((isBounded_block rest).as _).mono (by omega)
  · exact (@isBounded_refuse finish .statement [first] rest).mono (by omega) |>.as Node.absent
termination_by 3 * rest.length + 2

/-- The condition and its `then` may be missing. -/
theorem isBounded_ifStatement (line : Int) (rest : List Token) :
    (ifStatement finish line rest).IsBounded 2 rest := by
  have hhead := (@isBounded_expression finish rest).andThen
    (@isBounded_expect finish (.keyword .then) _)
  rw [ifStatement]
  dsimp only
  generalize (expression finish rest).andThen _ = head at hhead ⊢
  generalize hthen : (if startsWith (.keyword .else) _ then (⟨.absent, 0, []⟩ : Step Node) else
    statement finish _) = thenBranch
  have hbranch : thenBranch.IsBounded 0 (rest.drop head.used) := by
    rw [← hthen]
    split
    · exact .nothing Node.absent _
    · exact isBounded_statement _
  have hupper := hhead.andThen hbranch
  split
  next helse =>
    have hother := isBounded_statement (rest.drop ((head.andThen thenBranch).used + 1))
    rw [← List.drop_drop] at hother
    have hlast := isBounded_past_of_startsWith (by decide) helse hother
    rw [List.drop_drop] at hlast
    exact ((hupper.andThen hlast).as _).mono (by omega)
  next => exact hupper.as _
termination_by 3 * rest.length + 1
decreasing_by all_goals (try simp only [List.length_drop]); omega

theorem isBounded_whileStatement (line : Int) (rest : List Token) :
    (whileStatement finish line rest).IsBounded 2 rest := by
  rw [whileStatement]
  exact (((isBounded_expression rest).andThen (isBounded_expect _ _)).andThen
    (isBounded_statement _)).as _
termination_by 3 * rest.length + 1
decreasing_by simp only [List.length_drop]; omega

/-- The counter, the sign, both bounds, the direction and the `do` may be missing. -/
theorem isBounded_forStatement (line : Int) (rest : List Token) :
    (forStatement finish line rest).IsBounded 6 rest := by
  have hbecomes := (@isBounded_expect finish .identifier rest).andThen
    (@isBounded_expect finish .assign _)
  have hdirection := (hbecomes.andThen (@isBounded_expression finish _)).andThen
    (@isBounded_direction finish _)
  have hhead := (hdirection.andThen (@isBounded_bound finish _)).andThen
    (@isBounded_expect finish (.keyword .do) _)
  rw [forStatement]
  exact (hhead.andThen (isBounded_statement _)).as _
termination_by 3 * rest.length + 1
decreasing_by simp only [List.length_drop]; omega

/-- The `until` and the condition may be missing. -/
theorem isBounded_repeatStatement (line : Int) (rest : List Token) :
    (repeatStatement finish line rest).IsBounded 2 rest := by
  rw [repeatStatement]
  exact (((isBounded_statements rest).andThen (isBounded_expect _ _)).andThen
    (isBounded_expression _)).as _
termination_by 3 * rest.length + 1

theorem isBounded_block (rest : List Token) : (block finish rest).IsBounded 1 rest := by
  rw [block]
  exact ((isBounded_statements rest).andThen (isBounded_expect _ _)).as _
termination_by 3 * rest.length + 1

theorem isBounded_statements (tokens : List Token) :
    (statements finish tokens).IsBounded 0 tokens := by
  match tokens with
  | [] =>
    rw [statements]
    exact .nothing [] []
  | t :: rest =>
    rw [statements]
    split
    · exact .nothing [] (t :: rest)
    · split
      · exact (isBounded_statements rest).past.mono (by omega)
      · -- Six in the statement, and the separator behind it.
        have hseparated := (isBounded_statementFrom t rest).andThen
          (@isBounded_separator finish _)
        exact ((hseparated.andThen (isBounded_statements _)).as _).past
termination_by 3 * tokens.length
decreasing_by all_goals (try simp only [List.length_drop, List.length_cons]); omega

end

/-- Both words of a body may be missing. -/
theorem isBounded_body (tokens : List Token) : (body finish tokens).IsBounded 2 tokens :=
  ((isBounded_expect _ tokens).andThen (isBounded_block _)).as _

/-! ## Declarations -/

theorem isBounded_declaredName (tokens : List Token) :
    (declaredName finish tokens).IsBounded 1 tokens :=
  (isBounded_expect _ tokens).as _

theorem isBounded_moreNames (tokens : List Token) : (moreNames finish tokens).IsBounded 0 tokens :=
  isLoop_moreNames.isBounded (fun tokens => (isBounded_declaredName tokens).mono (by omega)) tokens

theorem isBounded_nameList (tokens : List Token) : (nameList finish tokens).IsBounded 1 tokens :=
  ((isBounded_declaredName tokens).andThen (isBounded_moreNames _)).as _

theorem isBounded_bounds (tokens : List Token) : (bounds tokens).IsBounded 0 tokens :=
  isBounded_takeWhile _ tokens

theorem isBounded_typeName (tokens : List Token) : (typeName finish tokens).IsBounded 1 tokens := by
  cases tokens with
  | nil => exact (isBounded_refuse .typeName [] []).as _
  | cons t rest =>
    rw [typeName]
    split
    · dsimp only
      split
      next hstring =>
        have hlength := isBounded_past_of_startsWith (by decide) hstring.2
          (isBounded_bounds (rest.drop 1))
        exact ((hlength.andThen (isBounded_accept _ _)).as _).past.mono (by omega)
      next => exact (isBounded_one _ t rest).mono (by omega)
    · exact (isBounded_refuse .typeName (t :: rest) _).as _

/-- The element type of an array comes behind the word that pays for what is missing in front of it.
-/
theorem isBounded_typeSpec (tokens : List Token) : (typeSpec finish tokens).IsBounded 1 tokens := by
  fun_induction typeSpec finish tokens with
  | case1 => exact isBounded_typeName []
  | case2 t rest _ opened inside closed head element ih =>
    have hinside := (@isBounded_expect finish .leftBracket rest).andThen
      (isBounded_bounds _)
    have hclosed := hinside.andThen (@isBounded_expect finish .rightBracket _)
    have hhead := hclosed.andThen (@isBounded_expect finish (.keyword .of) _)
    exact ((hhead.andThen ih).as _).past.mono (by omega)
  | case3 t rest _ => exact isBounded_typeName (t :: rest)

theorem isBounded_equalsSign (tokens : List Token) :
    (equalsSign finish tokens).IsBounded 1 tokens := by
  cases tokens with
  | nil => exact isBounded_refuse .equals [] []
  | cons t rest =>
    rw [equalsSign]
    split
    · exact (isBounded_one () t rest).mono (by omega)
    · exact isBounded_refuse .equals (t :: rest) _

theorem isBounded_constSection (tokens : List Token) :
    (constSection finish tokens).IsBounded 0 tokens := by
  fun_induction constSection finish tokens with
  | case1 => exact .nothing [] []
  | case2 name rest _ equals value closed more ih =>
    have hvalue := (@isBounded_equalsSign finish rest).andThen
      (@isBounded_expression finish _)
    have hclosed := hvalue.andThen (@isBounded_expect finish .semicolon _)
    exact ((hclosed.andThen ih).as _).past.mono (by omega)
  | case3 name rest _ => exact .nothing [] (name :: rest)

/-- The names, the colon and the type may be missing. -/
theorem isBounded_varDeclaration (tokens : List Token) :
    (varDeclaration finish tokens).IsBounded 3 tokens :=
  (((isBounded_nameList tokens).andThen (isBounded_expect _ _)).andThen (isBounded_typeSpec _)).as _

/-- A name that is there pays for the rest of its declaration. -/
theorem isBounded_varDeclaration_cons {t : Token} (ht : t.kind = .identifier) (rest : List Token) :
    (varDeclaration finish (t :: rest)).IsBounded (-5) (t :: rest) := by
  have hname : (declaredName finish (t :: rest)).IsBounded (-7) (t :: rest) := by
    rw [declaredName, expect_cons ht]
    exact isBounded_one _ t rest
  have hnames : (nameList finish (t :: rest)).IsBounded (-7) (t :: rest) :=
    (hname.andThen (isBounded_moreNames _)).as _
  exact ((hnames.andThen (isBounded_expect _ _)).andThen (isBounded_typeSpec _)).as _

theorem isBounded_varSection (tokens : List Token) :
    (varSection finish tokens).IsBounded 0 tokens := by
  fun_induction varSection finish tokens with
  | case1 => exact .nothing [] []
  | case2 t rest ht one closed more ih =>
    have hclosed := (@isBounded_varDeclaration_cons finish t ht rest).andThen
      (@isBounded_expect finish .semicolon _)
    exact ((hclosed.andThen ih).as _).mono (by omega)
  | case3 t rest _ => exact .nothing [] (t :: rest)

theorem isBounded_localSections (tokens : List Token) :
    (localSections finish tokens).IsBounded 0 tokens := by
  fun_induction localSections finish tokens with
  | case1 => exact .nothing [] []
  | case2 t rest _ one more ih =>
    exact (((isBounded_varSection rest).andThen ih).as _).past.mono (by omega)
  | case3 t rest _ _ one more ih =>
    exact (((isBounded_constSection rest).andThen ih).as _).past.mono (by omega)
  | case4 t rest _ _ => exact .nothing [] (t :: rest)

theorem isBounded_modifier (tokens : List Token) : (modifier tokens).IsBounded 0 tokens := by
  cases tokens with
  | nil => exact .nothing none []
  | cons t rest =>
    rw [modifier]
    split
    · exact (isBounded_one (some t.text) t rest).mono (by omega)
    · exact .nothing none (t :: rest)

/-- A group of parameters is as costly as a declaration of variables. -/
theorem isBounded_parameterGroup (tokens : List Token) :
    (parameterGroup finish tokens).IsBounded 3 tokens := by
  have hnames := (isBounded_modifier tokens).andThen (@isBounded_nameList finish _)
  exact ((hnames.andThen (isBounded_expect _ _)).andThen (isBounded_typeSpec _)).as _

theorem isBounded_parameters (tokens : List Token) :
    (parameters finish tokens).IsBounded 0 tokens :=
  isBounded_parenthesized isLoop_moreParameters
    (fun tokens => (isBounded_parameterGroup tokens).mono (by omega)) tokens

/-- The word of a function pays for all that is missing in its head and around its body. -/
theorem isBounded_functionDeclaration (line : Int) (rest : List Token) :
    (functionDeclaration finish line rest).IsBounded 7 rest := by
  have hformals := (@isBounded_expect finish .identifier rest).andThen
    (@isBounded_parameters finish _)
  have hresult := (hformals.andThen (@isBounded_expect finish .colon _)).andThen
    (@isBounded_typeSpec finish _)
  have hsections := (hresult.andThen (@isBounded_expect finish .semicolon _)).andThen
    (@isBounded_localSections finish _)
  exact ((hsections.andThen (isBounded_body _)).andThen (isBounded_expect _ _)).as _

/-- The name, the words of the body and both semicolons may be missing. -/
theorem isBounded_procedureDeclaration (line : Int) (rest : List Token) :
    (procedureDeclaration finish line rest).IsBounded 5 rest := by
  have hformals := (@isBounded_expect finish .identifier rest).andThen
    (@isBounded_parameters finish _)
  have hsections := (hformals.andThen (@isBounded_expect finish .semicolon _)).andThen
    (@isBounded_localSections finish _)
  exact ((hsections.andThen (isBounded_body _)).andThen (isBounded_expect _ _)).as _

/-! ## Programs -/

theorem isBounded_moreFiles (tokens : List Token) : (moreFiles tokens).IsBounded 0 tokens :=
  isLoop_moreFiles.isBounded (fun tokens => (isBounded_accept _ tokens).mono (by omega)) tokens

theorem isBounded_files (tokens : List Token) : (files finish tokens).IsBounded 0 tokens := by
  rw [files]
  split
  next hopen =>
    have hfirst := isBounded_past_of_startsWith (by decide) hopen
      (isBounded_accept .identifier (tokens.drop 1))
    exact (((hfirst.andThen (isBounded_moreFiles _)).andThen (isBounded_expect _ _)).as _).mono
      (by omega)
  next => exact .nothing () tokens

theorem isBounded_heading (tokens : List Token) : (heading finish tokens).IsBounded 0 tokens := by
  rw [heading]
  split
  next hword =>
    have hname := isBounded_past_of_startsWith (by decide) hword
      (@isBounded_expect finish .identifier (tokens.drop 1))
    exact (((hname.andThen (isBounded_files _)).andThen (isBounded_expect _ _)).as _).mono
      (by omega)
  next => exact .nothing "anonymous" tokens

theorem isBounded_units (tokens : List Token) : (units tokens).IsBounded 0 tokens := by
  rw [units]
  split
  next hword =>
    obtain ⟨t, rest, -, rfl⟩ := (startsWith_iff (by decide)).mp hword
    refine ((isBounded_accept .semicolon _).as ()).past_of_le ?_
    rw [List.length_cons, Nat.add_comm]
    exact Nat.succ_le_succ (List.takeWhile_sublist _).length_le
  next => exact .nothing () tokens

theorem isBounded_declarations (tokens : List Token) :
    (declarations finish tokens).IsBounded 0 tokens := by
  fun_induction declarations finish tokens with
  | case1 => exact .nothing [] []
  | case2 t rest _ one more ih =>
    exact (((isBounded_constSection rest).andThen ih).as _).past.mono (by omega)
  | case3 t rest _ count ih =>
    refine IsBounded.past_of_le ?_ ?_
    · rw [List.length_cons, Nat.add_comm]
      exact Nat.succ_le_succ (List.takeWhile_sublist _).length_le
    · rw [drop_one_add]
      exact ih
  | case4 t rest _ one more ih =>
    exact (((isBounded_varSection rest).andThen ih).as _).past.mono (by omega)
  | case5 t rest _ one more ih =>
    exact (((isBounded_functionDeclaration t.line rest).andThen ih).as _).past
  | case6 t rest _ one more ih =>
    exact (((isBounded_procedureDeclaration t.line rest).andThen ih).as _).past.mono (by omega)
  | case7 t rest => exact .nothing [] (t :: rest)

/-- **A program finds at most seven faults for each token, and two for a missing body.** -/
theorem isBounded_program (tokens : List Token) : (program finish tokens).IsBounded 2 tokens := by
  have hunits := (@isBounded_heading finish tokens).andThen (isBounded_units _)
  have hdeclared := hunits.andThen (@isBounded_declarations finish _)
  exact ((hdeclared.andThen (isBounded_body _)).andThen (isBounded_accept _ _)).as _

end Grammar
end PascalCheck
