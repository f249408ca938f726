import PascalCheck.Proofs.Grammar.Bounds

/-! # Progress

The loops of the reader are rules that read one item and go on with themselves.  Here is each of
them as what one iteration reads (`Loop.iteration`): the rule is its iterations, one after the
other, and each of them uses a token (`Loop.read_eq`, `Loop.used_iteration`).  Together with the
bounds of all rules (`Rule.isBounded`) this limits the reading of any tokens whatever. -/
namespace PascalCheck
namespace Grammar

open Step

/-! ## Loops -/

/-- The loops of the reader.  Those over operators carry what they have read so far. -/
inductive Loop where
  | relations (left : Expr)
  | sums (left : Expr)
  | products (left : Expr)
  | arguments | writeArguments | targets | statements
  | names | bounds | constants | variableGroups | sections | parameterGroups
  | files | units | definitions | declarations

/-- The token belongs to the names of units. -/
def isUnit (t : Token) : Bool :=
  t.kind != .semicolon && t.kind != .endOfInput

/-- The token belongs to bounds in brackets. -/
def isInside (t : Token) : Bool :=
  t.kind != .rightBracket && t.kind != .endOfInput

/-- An operator and its right operand. -/
def operation (next : Expr → Loop) (left : Expr) (isOperator : TokenKind → Bool)
    (operand : List Token → Step Expr) : List Token → Option (Step Loop)
  | [] => none
  | t :: rest =>
    if isOperator t.kind then
      let right := operand rest
      some ((right.as (next (.binary t.text left right.value t.line))).past 1)
    else none

/-- A token of a kind, and an item behind it. -/
def itemAfter {α : Type} (loop : Loop) (kind : TokenKind) (item : List Token → Step α) :
    List Token → Option (Step Loop)
  | [] => none
  | t :: rest => if t.kind = kind then some (((item rest).as loop).past 1) else none

/-- A token that is passed over. -/
def passedToken (loop : Loop) (isPassed : Token → Bool) : List Token → Option (Step Loop)
  | [] => none
  | t :: _ => if isPassed t then some ⟨loop, 1, []⟩ else none

namespace Loop

variable (finish : EndMark)

/-- What the loop reads. -/
def read : Loop → List Token → Step Unit
  | relations left, tokens => (Grammar.relations finish left tokens).as ()
  | sums left, tokens => (Grammar.sums finish left tokens).as ()
  | products left, tokens => (Grammar.products finish left tokens).as ()
  | arguments, tokens => (moreArguments finish tokens).as ()
  | writeArguments, tokens => (moreWriteArguments finish tokens).as ()
  | targets, tokens => (moreTargets finish tokens).as ()
  | statements, tokens => (Grammar.statements finish tokens).as ()
  | names, tokens => (moreNames finish tokens).as ()
  | bounds, tokens => Grammar.bounds tokens
  | constants, tokens => (constSection finish tokens).as ()
  | variableGroups, tokens => (varSection finish tokens).as ()
  | sections, tokens => (localSections finish tokens).as ()
  | parameterGroups, tokens => (moreParameters finish tokens).as ()
  | files, tokens => moreFiles tokens
  | units, tokens => ⟨(), (tokens.takeWhile isUnit).length, []⟩
  | definitions, tokens => ⟨(), (tokens.takeWhile fun t => !endsTypeSection t.kind).length, []⟩
  | declarations, tokens => (Grammar.declarations finish tokens).as ()

/-- One iteration of the loop, with the loop that goes on after it; none where the loop ends. -/
def iteration : Loop → List Token → Option (Step Loop)
  | relations left, tokens => operation relations left (· = .relation) (simple finish) tokens
  | sums left, tokens => operation sums left isAdding (term finish) tokens
  | products left, tokens => operation products left isMultiplying (factor finish) tokens
  | arguments, tokens => itemAfter arguments .comma (expression finish) tokens
  | writeArguments, tokens => itemAfter writeArguments .comma (writeArgument finish) tokens
  | targets, tokens => itemAfter targets .comma (target finish) tokens
  | names, tokens => itemAfter names .comma (declaredName finish) tokens
  | parameterGroups, tokens => itemAfter parameterGroups .semicolon (parameterGroup finish) tokens
  | files, tokens => itemAfter files .comma (accept .identifier) tokens
  | bounds, tokens => passedToken bounds isInside tokens
  | units, tokens => passedToken units isUnit tokens
  | definitions, tokens => passedToken definitions (fun t => !endsTypeSection t.kind) tokens
  | _, [] => none
  | statements, t :: rest =>
    if closesStatements t.kind then none
    else if t.kind = .semicolon then some ⟨statements, 1, []⟩
    else
      let first := statementFrom finish t rest
      some (((first.andThen (separator finish (rest.drop first.used))).as statements).past 1)
  | constants, t :: rest =>
    if t.kind = .identifier then
      let equals := equalsSign finish rest
      let value := equals.andThen (expression finish (rest.drop equals.used))
      let closed := value.andThen (expect finish .semicolon (rest.drop value.used))
      some ((closed.as constants).past 1)
    else none
  | variableGroups, t :: rest =>
    if t.kind = .identifier then
      let one := varDeclaration finish (t :: rest)
      let closed := one.andThen (expect finish .semicolon ((t :: rest).drop one.used))
      some (closed.as variableGroups)
    else none
  | sections, t :: rest =>
    if t.kind = .keyword .var then some (((varSection finish rest).as sections).past 1)
    else if t.kind = .keyword .const then some (((constSection finish rest).as sections).past 1)
    else none
  | declarations, t :: rest =>
    match t.kind with
    | .keyword .const => some (((constSection finish rest).as declarations).past 1)
    | .keyword .type => some (((definitions.read finish rest).as declarations).past 1)
    | .keyword .var => some (((varSection finish rest).as declarations).past 1)
    | .keyword .function =>
      some (((functionDeclaration finish t.line rest).as declarations).past 1)
    | .keyword .procedure =>
      some (((procedureDeclaration finish t.line rest).as declarations).past 1)
    | _ => none

/-- What a loop reads, in terms of its first iteration. -/
def unrolled (loop : Loop) (tokens : List Token) : Step Unit :=
  match loop.iteration finish tokens with
  | none => ⟨(), 0, []⟩
  | some one => one.andThen (one.value.read finish (tokens.drop one.used))

end Loop

section
variable {finish : EndMark}

/-- A further item and the items behind it. -/
theorem as_past_andThen {α β : Type} (one : Step α) (others : Step β) (value : β) (loop : Loop) :
    (((one.andThen others).as value).past 1).as () =
      ((one.as loop).past 1).andThen (others.as ()) := by
  simp [Step.past, Step.andThen, Step.as, Nat.add_assoc]

/-- An iteration that uses a token and reads one item, and what the loop reads after it. -/
theorem Loop.unrolled_past {α β : Type} {loop : Loop} (next : Loop) {t : Token}
    {rest : List Token} {one : Step α}
    (h : loop.iteration finish (t :: rest) = some ((one.as next).past 1))
    (others : Step β) (value : β)
    (hothers : next.read finish (rest.drop one.used) = others.as ()) :
    (((one.andThen others).as value).past 1).as () = loop.unrolled finish (t :: rest) := by
  unfold Loop.unrolled
  rw [h]
  dsimp only
  rw [past_value, as_value, past_used, as_used, drop_one_add, hothers]
  exact as_past_andThen one others value next

theorem Loop.unrolled_none {loop : Loop} {tokens : List Token}
    (h : loop.iteration finish tokens = none) : loop.unrolled finish tokens = ⟨(), 0, []⟩ := by
  unfold Loop.unrolled
  rw [h]

theorem IsLoop.unrolled {α β γ : Type} {kind : TokenKind} {a : Assembly α β γ}
    {item : List Token → Step α} {more : List Token → Step γ} (hl : IsLoop kind a item more)
    {loop : Loop} (hiteration : loop.iteration finish = itemAfter loop kind item)
    (hread : ∀ tokens, loop.read finish tokens = (more tokens).as ()) (tokens : List Token) :
    loop.read finish tokens = loop.unrolled finish tokens := by
  rw [hread, hl tokens]
  cases tokens with
  | nil => exact (Loop.unrolled_none (congrFun hiteration [])).symm
  | cons t rest =>
    dsimp only
    split
    next hkind =>
      refine Loop.unrolled_past loop ?_ _ _ (hread _)
      rw [hiteration]
      exact if_pos hkind
    next hkind =>
      refine (Loop.unrolled_none ?_).symm
      rw [hiteration]
      exact if_neg hkind

theorem passedToken_unrolled {loop : Loop} {isPassed : Token → Bool}
    (hiteration : loop.iteration finish = passedToken loop isPassed)
    (hread : ∀ tokens, loop.read finish tokens = ⟨(), (tokens.takeWhile isPassed).length, []⟩)
    (tokens : List Token) : loop.read finish tokens = loop.unrolled finish tokens := by
  unfold Loop.unrolled
  rw [hread, hiteration]
  cases tokens with
  | nil => rfl
  | cons t rest =>
    dsimp only [passedToken]
    rw [List.takeWhile_cons]
    split
    · simp [hread, Step.past, Nat.add_comm]
    · rfl

/-- The rule reads operators and operands as long as there are operators. -/
theorem operation_unrolled {loop : Expr → Loop} (isOperator : TokenKind → Bool)
    {operand : List Token → Step Expr} (rule : Expr → List Token → Step Expr)
    (hnil : ∀ left, rule left [] = ⟨left, 0, []⟩)
    (hcons : ∀ left t rest, rule left (t :: rest) =
      if isOperator t.kind then
        let right := operand rest
        (right.andThen (rule (.binary t.text left right.value t.line)
          (rest.drop right.used))).past 1
      else ⟨left, 0, []⟩)
    (hiteration : ∀ left,
      (loop left).iteration finish = operation loop left isOperator operand)
    (hread : ∀ left tokens, (loop left).read finish tokens = (rule left tokens).as ())
    (left : Expr) (tokens : List Token) :
    (loop left).read finish tokens = (loop left).unrolled finish tokens := by
  rw [hread]
  cases tokens with
  | nil =>
    rw [hnil]
    exact (Loop.unrolled_none (congrFun (hiteration left) [])).symm
  | cons t rest =>
    rw [hcons]
    split
    next hkind =>
      refine Loop.unrolled_past (loop _) ?_ _ _ (hread _ _)
      rw [hiteration]
      exact if_pos hkind
    next hkind =>
      refine (Loop.unrolled_none ?_).symm
      rw [hiteration]
      exact if_neg hkind

end

namespace Loop
variable (finish : EndMark)

theorem statements_unrolled (tokens : List Token) :
    (Grammar.statements finish tokens).as () = statements.unrolled finish tokens := by
  cases tokens with
  | nil =>
    rw [Grammar.statements]
    exact (unrolled_none rfl).symm
  | cons t rest =>
    rw [Grammar.statements]
    split
    next hcloses =>
      refine (unrolled_none ?_).symm
      exact if_pos hcloses
    next hcloses =>
      split
      next hsemicolon =>
        have hone : statements.iteration finish (t :: rest) = some ⟨statements, 1, []⟩ :=
          (if_neg hcloses).trans (if_pos hsemicolon)
        unfold unrolled
        rw [hone]
        rfl
      next hsemicolon =>
        refine unrolled_past statements ?_ _ _ rfl
        exact (if_neg hcloses).trans (if_neg hsemicolon)

theorem constants_unrolled (tokens : List Token) :
    (constSection finish tokens).as () = constants.unrolled finish tokens := by
  cases tokens with
  | nil =>
    rw [constSection]
    exact (unrolled_none rfl).symm
  | cons t rest =>
    rw [constSection]
    split
    next hname =>
      refine unrolled_past constants ?_ _ _ rfl
      exact if_pos hname
    next hname =>
      refine (unrolled_none ?_).symm
      exact if_neg hname

/-- An iteration reads a whole group, so that no token is in front of it. -/
theorem variableGroups_unrolled (tokens : List Token) :
    (varSection finish tokens).as () = variableGroups.unrolled finish tokens := by
  unfold unrolled
  cases tokens with
  | nil =>
    rw [varSection]
    rfl
  | cons t rest =>
    rw [varSection]
    dsimp only [iteration]
    split <;> rfl

theorem sections_unrolled (tokens : List Token) :
    (localSections finish tokens).as () = sections.unrolled finish tokens := by
  cases tokens with
  | nil =>
    rw [localSections]
    exact (unrolled_none rfl).symm
  | cons t rest =>
    rw [localSections]
    split
    next hvar =>
      refine unrolled_past sections ?_ _ _ rfl
      exact if_pos hvar
    next hvar =>
      split
      next hconst =>
        refine unrolled_past sections ?_ _ _ rfl
        exact (if_neg hvar).trans (if_pos hconst)
      next hconst =>
        refine (unrolled_none ?_).symm
        exact (if_neg hvar).trans (if_neg hconst)

theorem declarations_unrolled (tokens : List Token) :
    (Grammar.declarations finish tokens).as () = declarations.unrolled finish tokens := by
  cases tokens with
  | nil =>
    rw [Grammar.declarations]
    exact (unrolled_none rfl).symm
  | cons t rest =>
    rw [Grammar.declarations]
    split
    next hkind =>
      refine unrolled_past declarations ?_ _ _ rfl
      simp only [iteration, hkind]
    next hkind =>
      -- The definitions of types leave nothing in the tree.
      unfold unrolled
      simp only [iteration, hkind]
      simp [Step.past, Step.as, Step.andThen, read, Nat.add_assoc]
    next hkind =>
      refine unrolled_past declarations ?_ _ _ rfl
      simp only [iteration, hkind]
    next hkind =>
      refine unrolled_past declarations ?_ _ _ rfl
      simp only [iteration, hkind]
    next hkind =>
      refine unrolled_past declarations ?_ _ _ rfl
      simp only [iteration, hkind]
    next hconst htype hvar hfunction hprocedure =>
      refine (unrolled_none ?_).symm
      dsimp only [iteration]
      split <;> first | contradiction | rfl

/-- **A loop is its iterations, one after the other.** -/
theorem read_eq (loop : Loop) (tokens : List Token) :
    loop.read finish tokens = loop.unrolled finish tokens := by
  cases loop with
  | relations left =>
    refine operation_unrolled (· = .relation) (Grammar.relations finish) ?_ ?_ (fun _ => rfl)
      (fun _ _ => rfl) left tokens
    · intro left
      rw [Grammar.relations]
    · intro left t rest
      rw [Grammar.relations]
      simp only [decide_eq_true_eq]
  | sums left =>
    refine operation_unrolled isAdding (Grammar.sums finish) ?_ ?_ (fun _ => rfl)
      (fun _ _ => rfl) left tokens
    · intro left
      rw [Grammar.sums]
    · intro left t rest
      rw [Grammar.sums]
  | products left =>
    refine operation_unrolled isMultiplying (Grammar.products finish) ?_ ?_ (fun _ => rfl)
      (fun _ _ => rfl) left tokens
    · intro left
      rw [Grammar.products]
    · intro left t rest
      rw [Grammar.products]
  | arguments =>
    have hl : IsLoop .comma .items (expression finish) (moreArguments finish) := by
      intro tokens
      cases tokens <;> (rw [moreArguments]; rfl)
    exact hl.unrolled rfl (fun _ => rfl) tokens
  | writeArguments => exact isLoop_moreWriteArguments.unrolled rfl (fun _ => rfl) tokens
  | targets => exact isLoop_moreTargets.unrolled rfl (fun _ => rfl) tokens
  | names => exact isLoop_moreNames.unrolled rfl (fun _ => rfl) tokens
  | parameterGroups => exact isLoop_moreParameters.unrolled rfl (fun _ => rfl) tokens
  | files => exact isLoop_moreFiles.unrolled rfl (fun _ => rfl) tokens
  | bounds | units | definitions => exact passedToken_unrolled rfl (fun _ => rfl) tokens
  | statements => exact statements_unrolled finish tokens
  | constants => exact constants_unrolled finish tokens
  | variableGroups => exact variableGroups_unrolled finish tokens
  | sections => exact sections_unrolled finish tokens
  | declarations => exact declarations_unrolled finish tokens

/-- An iteration that uses a token, and then what a bounded step uses. -/
theorem used_past {α : Type} {one : Step α} {a : Int} {t : Token} {rest : List Token}
    (h : one.IsBounded a rest) :
    0 < (one.past 1).used ∧ (one.past 1).used ≤ (t :: rest).length := by
  have hused := h.used_le
  rw [past_used, List.length_cons]
  omega

theorem used_operation {next : Expr → Loop} {left : Expr} (isOperator : TokenKind → Bool)
    {operand : List Token → Step Expr} (hoperand : ∀ tokens, (operand tokens).IsBounded 1 tokens)
    {tokens : List Token} {one : Step Loop}
    (h : operation next left isOperator operand tokens = some one) :
    0 < one.used ∧ one.used ≤ tokens.length := by
  cases tokens with
  | nil => cases h
  | cons t rest =>
    dsimp only [operation] at h
    split at h
    · cases h
      exact used_past ((hoperand rest).as _)
    · cases h

theorem used_itemAfter {α : Type} {loop : Loop} {kind : TokenKind} {item : List Token → Step α}
    {a : Int} (hitem : ∀ tokens, (item tokens).IsBounded a tokens) {tokens : List Token}
    {one : Step Loop} (h : itemAfter loop kind item tokens = some one) :
    0 < one.used ∧ one.used ≤ tokens.length := by
  cases tokens with
  | nil => cases h
  | cons t rest =>
    dsimp only [itemAfter] at h
    split at h
    · cases h
      exact used_past ((hitem rest).as loop)
    · cases h

theorem used_passedToken {loop : Loop} {isPassed : Token → Bool} {tokens : List Token}
    {one : Step Loop} (h : passedToken loop isPassed tokens = some one) :
    0 < one.used ∧ one.used ≤ tokens.length := by
  cases tokens with
  | nil => cases h
  | cons t rest =>
    dsimp only [passedToken] at h
    split at h
    · cases h
      exact ⟨Nat.one_pos, Nat.succ_le_succ (Nat.zero_le _)⟩
    · cases h

variable {finish}

/-- The names of units are a loop behind the word. -/
theorem units_eq (tokens : List Token) :
    Grammar.units tokens =
      if startsWith (.keyword .uses) tokens then
        let names := units.read finish (tokens.drop 1)
        ((names.andThen (Grammar.accept .semicolon ((tokens.drop 1).drop names.used))).as ()).past 1
      else ⟨(), 0, []⟩ := by
  unfold Grammar.units
  split
  · dsimp only [read]
    rw [List.drop_drop, mk_andThen, past_as, past_past]
    rfl
  · rfl

/-- **Every iteration of a loop uses a token.** -/
theorem used_iteration {loop : Loop} {tokens : List Token} {one : Step Loop}
    (h : loop.iteration finish tokens = some one) : 0 < one.used ∧ one.used ≤ tokens.length := by
  cases loop with
  | relations left => exact used_operation (· = .relation) isBounded_simple h
  | sums left => exact used_operation isAdding isBounded_term h
  | products left => exact used_operation isMultiplying isBounded_factor h
  | arguments => exact used_itemAfter isBounded_expression h
  | writeArguments => exact used_itemAfter isBounded_writeArgument h
  | targets => exact used_itemAfter isBounded_target h
  | names => exact used_itemAfter isBounded_declaredName h
  | parameterGroups => exact used_itemAfter isBounded_parameterGroup h
  | files => exact used_itemAfter (isBounded_accept .identifier) h
  | bounds | units | definitions => exact used_passedToken h
  | statements =>
    cases tokens with
    | nil => cases h
    | cons t rest =>
      dsimp only [iteration] at h
      split at h
      · cases h
      · split at h
        · cases h
          exact ⟨Nat.one_pos, Nat.succ_le_succ (Nat.zero_le _)⟩
        · cases h
          exact used_past (((isBounded_statementFrom t rest).andThen (isBounded_separator _)).as _)
  | constants =>
    cases tokens with
    | nil => cases h
    | cons t rest =>
      dsimp only [iteration] at h
      split at h
      · cases h
        exact used_past ((((isBounded_equalsSign rest).andThen (isBounded_expression _)).andThen
          (isBounded_expect _ _)).as _)
      · cases h
  | variableGroups =>
    cases tokens with
    | nil => cases h
    | cons t rest =>
      dsimp only [iteration] at h
      split at h
      next hname =>
        cases h
        have hpos := one_le_used_varDeclaration finish t rest hname
        have hone := (@isBounded_varDeclaration finish (t :: rest)).andThen
          (@isBounded_expect finish .semicolon _)
        refine ⟨?_, hone.used_le⟩
        rw [as_used, andThen_used]
        omega
      next => cases h
  | sections =>
    cases tokens with
    | nil => cases h
    | cons t rest =>
      dsimp only [iteration] at h
      split at h
      · cases h
        exact used_past ((isBounded_varSection rest).as _)
      · split at h
        · cases h
          exact used_past ((isBounded_constSection rest).as _)
        · cases h
  | declarations =>
    cases tokens with
    | nil => cases h
    | cons t rest =>
      dsimp only [iteration] at h
      split at h
      · cases h
        exact used_past ((isBounded_constSection rest).as _)
      · cases h
        exact used_past ((isBounded_takeWhile _ rest).as _)
      · cases h
        exact used_past ((isBounded_varSection rest).as _)
      · cases h
        exact used_past ((isBounded_functionDeclaration t.line rest).as _)
      · cases h
        exact used_past ((isBounded_procedureDeclaration t.line rest).as _)
      · cases h

end Loop

/-! ## Rules -/

/-- The rules of the reader, with what each knows when it begins. -/
inductive Rule where
  | loop (loop : Loop)
  | expect (kind : TokenKind) | accept (kind : TokenKind)
  | expression | simple | term | factor | arguments
  | assignment (name : Token) | procedureCall (name : Token)
  | format | writeArgument | writeStatement (word : Token)
  | target | readStatement (word : Token)
  | separator | direction | bound
  | statement | statementFrom (first : Token)
  | ifStatement (line : Int) | whileStatement (line : Int) | forStatement (line : Int)
  | repeatStatement (line : Int) | block | body
  | declaredName | nameList | typeName | typeSpec | equalsSign | varDeclaration
  | modifier | parameterGroup | parameters
  | functionDeclaration (line : Int) | procedureDeclaration (line : Int)
  | files | heading | units | program

namespace Rule

variable (finish : EndMark)

/-- What the rule reads. -/
def read : Rule → List Token → Step Unit
  | loop l, tokens => l.read finish tokens
  | expect kind, tokens => (Grammar.expect finish kind tokens).as ()
  | accept kind, tokens => (Grammar.accept kind tokens).as ()
  | expression, tokens => (Grammar.expression finish tokens).as ()
  | simple, tokens => (Grammar.simple finish tokens).as ()
  | term, tokens => (Grammar.term finish tokens).as ()
  | factor, tokens => (Grammar.factor finish tokens).as ()
  | arguments, tokens => (Grammar.arguments finish tokens).as ()
  | assignment name, tokens => (Grammar.assignment finish name tokens).as ()
  | procedureCall name, tokens => (Grammar.procedureCall finish name tokens).as ()
  | format, tokens => (Grammar.format finish tokens).as ()
  | writeArgument, tokens => (Grammar.writeArgument finish tokens).as ()
  | writeStatement word, tokens => (Grammar.writeStatement finish word tokens).as ()
  | target, tokens => (Grammar.target finish tokens).as ()
  | readStatement word, tokens => (Grammar.readStatement finish word tokens).as ()
  | separator, tokens => Grammar.separator finish tokens
  | direction, tokens => (Grammar.direction finish tokens).as ()
  | bound, tokens => (Grammar.bound finish tokens).as ()
  | statement, tokens => (Grammar.statement finish tokens).as ()
  | statementFrom first, tokens => (Grammar.statementFrom finish first tokens).as ()
  | ifStatement line, tokens => (Grammar.ifStatement finish line tokens).as ()
  | whileStatement line, tokens => (Grammar.whileStatement finish line tokens).as ()
  | forStatement line, tokens => (Grammar.forStatement finish line tokens).as ()
  | repeatStatement line, tokens => (Grammar.repeatStatement finish line tokens).as ()
  | block, tokens => (Grammar.block finish tokens).as ()
  | body, tokens => (Grammar.body finish tokens).as ()
  | declaredName, tokens => (Grammar.declaredName finish tokens).as ()
  | nameList, tokens => (Grammar.nameList finish tokens).as ()
  | typeName, tokens => (Grammar.typeName finish tokens).as ()
  | typeSpec, tokens => (Grammar.typeSpec finish tokens).as ()
  | equalsSign, tokens => Grammar.equalsSign finish tokens
  | varDeclaration, tokens => (Grammar.varDeclaration finish tokens).as ()
  | modifier, tokens => (Grammar.modifier tokens).as ()
  | parameterGroup, tokens => (Grammar.parameterGroup finish tokens).as ()
  | parameters, tokens => (Grammar.parameters finish tokens).as ()
  | functionDeclaration line, tokens => (Grammar.functionDeclaration finish line tokens).as ()
  | procedureDeclaration line, tokens => (Grammar.procedureDeclaration finish line tokens).as ()
  | files, tokens => Grammar.files finish tokens
  | heading, tokens => (Grammar.heading finish tokens).as ()
  | units, tokens => Grammar.units tokens
  | program, tokens => (Grammar.program finish tokens).as ()

/-- How many faults the rule may find without using a token. -/
def allowance : Rule → Nat
  | expect _ | expression | simple | term | factor | arguments | writeArgument | target
  | separator | direction | bound | block | declaredName | nameList | typeName | typeSpec
  | equalsSign => 1
  | assignment _ | ifStatement _ | whileStatement _ | repeatStatement _ | body | program => 2
  | varDeclaration | parameterGroup => 3
  | procedureDeclaration _ => 5
  | statementFrom _ | forStatement _ => 6
  | functionDeclaration _ => 7
  | _ => 0

end Rule

theorem Loop.isBounded (finish : EndMark) (loop : Loop) (tokens : List Token) :
    (loop.read finish tokens).IsBounded 0 tokens := by
  cases loop with
  | relations left => exact (isBounded_relations left tokens).as ()
  | sums left => exact (isBounded_sums left tokens).as ()
  | products left => exact (isBounded_products left tokens).as ()
  | arguments => exact (isBounded_moreArguments tokens).as ()
  | writeArguments =>
    exact (isLoop_moreWriteArguments.isBounded
      (fun tokens => (isBounded_writeArgument tokens).mono (by omega)) tokens).as ()
  | targets =>
    exact (isLoop_moreTargets.isBounded
      (fun tokens => (isBounded_target tokens).mono (by omega)) tokens).as ()
  | statements => exact (isBounded_statements tokens).as ()
  | names => exact (isBounded_moreNames tokens).as ()
  | bounds => exact isBounded_bounds tokens
  | constants => exact (isBounded_constSection tokens).as ()
  | variableGroups => exact (isBounded_varSection tokens).as ()
  | sections => exact (isBounded_localSections tokens).as ()
  | parameterGroups =>
    exact (isLoop_moreParameters.isBounded
      (fun tokens => (isBounded_parameterGroup tokens).mono (by omega)) tokens).as ()
  | files => exact isBounded_moreFiles tokens
  | units | definitions => exact isBounded_takeWhile _ tokens
  | declarations => exact (isBounded_declarations tokens).as ()

/-- **Every rule stays within the tokens, and within its allowance of faults.** -/
theorem Rule.isBounded (finish : EndMark) (rule : Rule) (tokens : List Token) :
    (rule.read finish tokens).IsBounded rule.allowance tokens := by
  cases rule with
  | loop loop => exact loop.isBounded finish tokens
  | expect kind => exact (isBounded_expect kind tokens).as ()
  | accept kind => exact (isBounded_accept kind tokens).as ()
  | expression => exact (isBounded_expression tokens).as ()
  | simple => exact (isBounded_simple tokens).as ()
  | term => exact (isBounded_term tokens).as ()
  | factor => exact (isBounded_factor tokens).as ()
  | arguments => exact (isBounded_arguments tokens).as ()
  | assignment name => exact (isBounded_assignment name tokens).as ()
  | procedureCall name => exact (isBounded_procedureCall name tokens).as ()
  | format => exact (isBounded_format tokens).as ()
  | writeArgument => exact (isBounded_writeArgument tokens).as ()
  | writeStatement word => exact (isBounded_writeStatement word tokens).as ()
  | target => exact (isBounded_target tokens).as ()
  | readStatement word => exact (isBounded_readStatement word tokens).as ()
  | separator => exact isBounded_separator tokens
  | direction => exact (isBounded_direction tokens).as ()
  | bound => exact (isBounded_bound tokens).as ()
  | statement => exact (isBounded_statement tokens).as ()
  | statementFrom first => exact (isBounded_statementFrom first tokens).as ()
  | ifStatement line => exact (isBounded_ifStatement line tokens).as ()
  | whileStatement line => exact (isBounded_whileStatement line tokens).as ()
  | forStatement line => exact (isBounded_forStatement line tokens).as ()
  | repeatStatement line => exact (isBounded_repeatStatement line tokens).as ()
  | block => exact (isBounded_block tokens).as ()
  | body => exact (isBounded_body tokens).as ()
  | declaredName => exact (isBounded_declaredName tokens).as ()
  | nameList => exact (isBounded_nameList tokens).as ()
  | typeName => exact (isBounded_typeName tokens).as ()
  | typeSpec => exact (isBounded_typeSpec tokens).as ()
  | equalsSign => exact isBounded_equalsSign tokens
  | varDeclaration => exact (isBounded_varDeclaration tokens).as ()
  | modifier => exact (isBounded_modifier tokens).as ()
  | parameterGroup => exact (isBounded_parameterGroup tokens).as ()
  | parameters => exact (isBounded_parameters tokens).as ()
  | functionDeclaration line => exact (isBounded_functionDeclaration line tokens).as ()
  | procedureDeclaration line => exact (isBounded_procedureDeclaration line tokens).as ()
  | files => exact isBounded_files tokens
  | heading => exact (isBounded_heading tokens).as ()
  | units => exact isBounded_units tokens
  | program => exact (isBounded_program tokens).as ()

/-- What one more iteration of a loop is: the loop ends without reading, or the iteration uses at
least one of the tokens, and the loop goes on behind it. -/
def Loop.Advances (finish : EndMark) (loop : Loop) (tokens : List Token) : Prop :=
  match loop.iteration finish tokens with
  | none => loop.read finish tokens = ⟨(), 0, []⟩
  | some one => 0 < one.used ∧ one.used ≤ tokens.length ∧
      loop.read finish tokens = one.andThen (one.value.read finish (tokens.drop one.used))

theorem Loop.advances (finish : EndMark) (loop : Loop) (tokens : List Token) :
    loop.Advances finish tokens := by
  have hread := loop.read_eq finish tokens
  unfold Loop.unrolled at hread
  unfold Loop.Advances
  cases hone : loop.iteration finish tokens with
  | none =>
    rw [hone] at hread
    exact hread
  | some one =>
    rw [hone] at hread
    exact ⟨(used_iteration hone).1, (used_iteration hone).2, hread⟩

/-- The tokens in front of the end mark are all, or all but the last one where that is the mark. -/
theorem length_delimit (tokens : List Token) :
    (delimit tokens).1.length =
      if tokens.getLast?.map (·.kind) = some .endOfInput then tokens.length - 1
      else tokens.length := by
  unfold delimit
  cases hlast : tokens.getLast? with
  | none =>
    rw [List.getLast?_eq_none_iff.mp hlast]
    rfl
  | some t =>
    dsimp only [Option.map_some]
    by_cases ht : t.kind = .endOfInput
    · rw [if_pos ht, if_pos (congrArg some ht), List.length_dropLast]
    · rw [if_neg ht, if_neg fun h => ht (Option.some.inj h)]

/-- **The reading of any tokens comes to an end, and does not find too many faults.**  Every
iteration of a loop uses a token, no rule passes the last token, and for n tokens in front of the
end mark at most 7 * n + 2 faults are found. -/
theorem parse_advances :
    (∀ finish (loop : Loop) tokens, loop.Advances finish tokens) ∧
    (∀ finish (rule : Rule) tokens, (rule.read finish tokens).used ≤ tokens.length ∧
      (rule.read finish tokens).faults.length ≤
        7 * (rule.read finish tokens).used + rule.allowance) ∧
    ∀ tokens, let n := (delimit tokens).1.length
      n = (if tokens.getLast?.map (·.kind) = some .endOfInput then tokens.length - 1
        else tokens.length) ∧
      (parse tokens).used ≤ n ∧
        ((parse tokens).faults.map GrammarFault.diagnostic).length ≤ 7 * n + 2 := by
  refine ⟨Loop.advances, ?_, ?_⟩
  · intro finish rule tokens
    have hbounded := rule.isBounded finish tokens
    have hfaults := hbounded.faults_le
    exact ⟨hbounded.used_le, by omega⟩
  · intro tokens
    have hbounded := @isBounded_program (delimit tokens).2 (delimit tokens).1
    have hused := hbounded.used_le
    have hfaults := hbounded.faults_le
    refine ⟨length_delimit tokens, hused, ?_⟩
    rw [List.length_map]
    show (program _ _).faults.length ≤ _
    omega

/-- The word of a function, by itself, is one fault for each part of the function and two for the
body of the program. -/
example :
    (parse [⟨.keyword .function, "function", 0, 1, 1⟩]).faults.length = 7 * 1 + 2 := by
  cbv

end Grammar
end PascalCheck
