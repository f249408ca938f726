import PascalCheck.Analysis.Statement
import PascalCheck.Proofs.Analysis.Returns

/-! # The walk as a script

A walk over a tree does its steps in an order that the tree alone decides: they are the script of
the tree, the parts of the program in the order in which they are looked at.  What is found on the
way decides one thing only, whether the rest of an assignment is passed over, because there is
nothing to assign to.  **Performing the script is the walk** (`performAll_walk`), so that the places
of the script are the points of the walk. -/
namespace PascalCheck

/-- A step of a walk.  The steps of an expression leave its type behind for those that follow. -/
inductive Action where
  | give (ty : Ty)
  | literal (typeName : String)
  | name (name : String) (line : Int)
  | element (name : String) (line : Int)
  | call (name : String) (arguments : Nat) (line : Int)
  | binary (op : String) (line : Int)
  | unary (op : String) (line : Int)
  /-- The last types are not needed. -/
  | discard (count : Nat)
  | condition (statement : Conditional) (line : Int)
  | bound (which : Bound) (line : Int)
  /-- The left side of an assignment. -/
  | target (name : String) (line : Int)
  /-- The end of an assignment. -/
  | store (name : String) (line : Int)
  | counter (name : String) (line : Int)
  | enterLoop (counter : String)
  | leaveLoop (counter : String)
  | read (routine name : String) (line : Int)
  /-- A call as a statement. -/
  | invoke (name : String) (arguments : Nat) (line : Int)
  | openBlock (line : Int)
  | closeBlock
  | enterRoutine (routine : DeclaredRoutine)
  | parameter (line : Int) (parameter : Parameter)
  | result (routine : DeclaredRoutine)
  | leaveRoutine
  | variable (name : DeclaredName) (ty : Ty)
  | constant (name : String) (line : Int)
  | fragment (f : Fragment)

/-! ## Scripts -/

namespace Expr

mutual

/-- What a walk does to give the expression a type. -/
def script : Expr → List Action
  | absent | placeholder _ _ => [.give .error]
  | literal _ typeName _ => [.literal typeName]
  | identifier name line => [.name name line]
  | call name arguments line => scripts arguments ++ [.call name arguments.length line]
  | element name index line => script index ++ [.element name line]
  | binary op left right line => script left ++ script right ++ [.binary op line]
  | unary op operand line => script operand ++ [.unary op line]

def scripts : List Expr → List Action
  | [] => []
  | e :: rest => script e ++ scripts rest

end

end Expr

namespace VarDeclaration

def script (declaration : VarDeclaration) : List Action :=
  declaration.names.map fun name => .variable name (Ty.resolve declaration.typeSpec.name)

end VarDeclaration

namespace ConstDeclaration

/-- The value of a constant precedes its declaration. -/
def script (declaration : ConstDeclaration) : List Action :=
  (match declaration.value with
    | .absent => [.give .integer]
    | e => e.script) ++ [.constant declaration.name declaration.line]

/-- What a walk does to give a constant a type. -/
def valueScript (declaration : ConstDeclaration) : List Action :=
  match declaration.value with
  | .absent => [.give .integer]
  | e => e.script

theorem script_eq (declaration : ConstDeclaration) :
    declaration.script =
      declaration.valueScript ++ [.constant declaration.name declaration.line] := rfl

theorem valueScript_cases (declaration : ConstDeclaration) :
    declaration.valueScript = [.give .integer] ∨
      declaration.valueScript = declaration.value.script := by
  unfold valueScript
  split
  · exact .inl rfl
  · exact .inr rfl

end ConstDeclaration

namespace WriteArgument

def script (argument : WriteArgument) : List Action :=
  argument.value.script ++ argument.width.script ++ argument.decimals.script ++ [.discard 3]

end WriteArgument

namespace Target

/-- The index of an element precedes the element. -/
def script (routine : String) : Target → List Action
  | name n line => [.read routine n line]
  | element n index line => index.script ++ [.discard 1, .read routine n line]

end Target

namespace DeclaredRoutine

/-- The routine with its parameters, and the name of a function for its result. -/
def script (routine : DeclaredRoutine) (parameters : List Parameter) : List Action :=
  .enterRoutine routine :: parameters.map (.parameter routine.line) ++ [.result routine]

end DeclaredRoutine

mutual

/-- What a walk over the declaration or statement does. -/
def Node.script : Node → List Action
  | .program _ declarations body _ => Node.scripts declarations ++ Body.script body
  | .varSection declarations _ => declarations.flatMap VarDeclaration.script
  | .constSection declarations _ => declarations.flatMap ConstDeclaration.script
  | .function name parameters result declarations body line =>
    DeclaredRoutine.script ⟨name, some (Ty.resolve result.name), parameters.length, line⟩
      parameters ++ Node.scripts declarations ++ Body.script body ++ [.leaveRoutine]
  | .procedure name parameters declarations body line =>
    DeclaredRoutine.script ⟨name, none, parameters.length, line⟩ parameters ++
      Node.scripts declarations ++ Body.script body ++ [.leaveRoutine]
  | .block statements line => .openBlock line :: Node.scripts statements ++ [.closeBlock]
  | .assignment target value index line =>
    .target target line :: index.script ++ value.script ++ [.store target line]
  | .ifThen condition thenBranch elseBranch line =>
    condition.script ++ [.condition .ifThen line] ++ Node.script thenBranch ++
      Node.script elseBranch
  | .whileDo condition body line =>
    condition.script ++ [.condition .whileDo line] ++ Node.script body
  | .forDo counter start finish _ body line =>
    .counter counter line :: (start.script ++ [.bound .start line]) ++
      (finish.script ++ [.bound .finish line]) ++ [.enterLoop counter] ++ Node.script body ++
      [.leaveLoop counter]
  | .repeatUntil statements condition line =>
    Node.scripts statements ++ condition.script ++ [.condition .repeatUntil line]
  | .write _ arguments _ => arguments.flatMap WriteArgument.script
  | .read routine targets _ => targets.flatMap (Target.script routine)
  | .call name arguments line =>
    Expr.scripts arguments ++ [.discard arguments.length, .invoke name arguments.length line]
  | .expression e => e.script ++ [.discard 1]
  | .fragment f => [.fragment f]

def Node.scripts : List Node → List Action
  | [] => []
  | node :: rest => Node.script node ++ Node.scripts rest

def Body.script : Body → List Action
  | .missing => []
  | .block statements _ => Node.scripts statements

end

theorem Node.scripts_append (nodes more : List Node) :
    Node.scripts (nodes ++ more) = Node.scripts nodes ++ Node.scripts more := by
  induction nodes with
  | nil => rfl
  | cons node rest ih => rw [List.cons_append, Node.scripts, Node.scripts, ih, List.append_assoc]

/-! ## Performing a script -/

/-- What a walk has at hand between two steps: the types that the following steps need, the last one
first, and whether the rest of an assignment is being passed over. -/
structure Held where
  types : List Ty := []
  skipping : Bool := false

namespace Action

/-- The last of the types that are held. -/
def top (types : List Ty) : Ty :=
  types.headD .error

/-- The last step of an assignment. -/
def isStore : Action → Bool
  | store _ _ => true
  | _ => false

open Analysis
variable (catalogue : Catalogue)

/-- What a step does, if it is not passed over. -/
def effect (action : Action) (types : List Ty) : Analysis Held := do
  match action with
  | give ty => return ⟨ty :: types, false⟩
  | literal typeName =>
    let ty ← literalType typeName
    return ⟨ty :: types, false⟩
  | name n line =>
    let ty ← nameType catalogue n line
    return ⟨ty :: types, false⟩
  | element n line =>
    let ty ← elementType n line
    return ⟨ty :: types.tail, false⟩
  | call n arguments line =>
    let ty ← callType catalogue n (types.take arguments).reverse line
    return ⟨ty :: types.drop arguments, false⟩
  | binary op line =>
    let ty ← binaryType op (top types.tail) (top types) line
    return ⟨ty :: types.drop 2, false⟩
  | unary op line =>
    let ty ← unaryType op (top types) line
    return ⟨ty :: types.tail, false⟩
  | discard count => return ⟨types.drop count, false⟩
  | condition statement line =>
    unless (top types).same .boolean || (top types).isError do
      report line (.condition statement (top types))
    return ⟨types.tail, false⟩
  | bound which line =>
    unless (top types).same .integer || (top types).isError do
      report line (.bound which (top types))
    return ⟨types.tail, false⟩
  | target n line =>
    match ← symbol? n with
    | none =>
      report line (.undeclared n)
      return ⟨types, true⟩
    | some symbol =>
      checkNotCounter n line
      if symbol.category = .constant then
        report line (.constantAssigned n)
        return ⟨types, true⟩
      else return ⟨symbol.ty :: types, false⟩
  | store n line =>
    let ty := top types
    let stored := top (types.drop 2)
    unless stored.accepts ty do
      if stored.same .integer && ty.same .real then report line (.narrowed n)
      else report line (.mismatch ty n stored)
    changeTable (·.markInitialized n)
    return ⟨types.drop 3, false⟩
  | counter n line =>
    checkCounter n line
    return ⟨types, false⟩
  | enterLoop n =>
    if Text.lower n ≠ "" then protect (Text.lower n)
    return ⟨types, false⟩
  | leaveLoop n =>
    unprotect (Text.lower n)
    return ⟨types, false⟩
  | read routine n line =>
    storeRead routine n line
    return ⟨types, false⟩
  | invoke n arguments line =>
    checkCall catalogue n arguments line
    return ⟨types, false⟩
  | openBlock line =>
    openScope s!"block_line_{line}"
    return ⟨types, false⟩
  | closeBlock =>
    closeScope
    return ⟨types, false⟩
  | enterRoutine routine =>
    Analysis.enterRoutine routine
    openScope routine.key
    return ⟨types, false⟩
  | parameter line p =>
    declareParameters line [p]
    return ⟨types, false⟩
  | result routine =>
    declareResult routine
    return ⟨types, false⟩
  | leaveRoutine =>
    closeScope
    return ⟨types, false⟩
  | «variable» n ty =>
    declareVariables ty [n]
    return ⟨types, false⟩
  | constant n line =>
    if ← declare .constant n (top types) line .constant then
      changeTable (·.markInitialized n)
    return ⟨types.tail, false⟩
  | fragment f => throw (.noRule f.kindName)

/-- Performs a step, or passes over it. -/
def perform (action : Action) (held : Held) : Analysis Held :=
  if held.skipping then return ⟨held.types, !action.isStore⟩
  else action.effect catalogue held.types

end Action

namespace Analysis
variable {catalogue : Catalogue}

/-- Performs the steps of a script, one after the other. -/
def performAll (catalogue : Catalogue) (actions : List Action) (held : Held) : Analysis Held :=
  actions.foldlM (fun held action => action.perform catalogue held) held

@[simp] theorem performAll_nil : performAll catalogue [] = pure := rfl

@[simp] theorem performAll_cons (action : Action) (rest : List Action) (held : Held) :
    performAll catalogue (action :: rest) held =
      action.perform catalogue held >>= performAll catalogue rest := rfl

@[simp] theorem performAll_append (actions rest : List Action) (held : Held) :
    performAll catalogue (actions ++ rest) held =
      performAll catalogue actions held >>= performAll catalogue rest :=
  List.foldlM_append

theorem walkCall_eq (name : String) (arguments : List Expr) (line : Int) :
    walkCall catalogue name arguments line =
      typesOf catalogue arguments >>= fun _ => checkCall catalogue name arguments.length line := rfl

@[simp] theorem perform_false (action : Action) (types : List Ty) :
    action.perform catalogue ⟨types, false⟩ = action.effect catalogue types := rfl

/-! ### Expressions -/

/-- There are as many types as expressions. -/
theorem typesOf_bind {α : Type} (es : List Expr) (f : Nat → List Ty → Analysis α) :
    (typesOf catalogue es >>= fun types => f types.length types) =
      typesOf catalogue es >>= f es.length := by
  induction es generalizing f with
  | nil => simp [typesOf]
  | cons e es ih =>
    simp only [typesOf, bind_assoc, pure_bind, List.length_cons]
    exact bind_congr fun ty => ih fun n types => f (n + 1) (ty :: types)

mutual

/-- **Performing the script of an expression gives its type.** -/
theorem performAll_script : ∀ (e : Expr) (types : List Ty),
    performAll catalogue e.script ⟨types, false⟩ = do
      let ty ← typeOf catalogue e
      return ⟨ty :: types, false⟩
  | .absent, types | .placeholder _ _, types | .literal _ _ _, types
  | .identifier _ _, types => by
    simp [Expr.script, typeOf, Action.effect]
  | .call name arguments line, types => by
    -- The arguments leave their types behind, the last one first; the call takes as many of them.
    have hcall := @typesOf_bind catalogue _ arguments fun n tys => do
      let ty ← callType catalogue name ((tys.reverse ++ types).take n).reverse line
      return (⟨ty :: (tys.reverse ++ types).drop n, false⟩ : Held)
    have htake : ∀ tys : List Ty, ((tys.reverse ++ types).take tys.length).reverse = tys := by
      intro tys
      rw [List.take_left' List.length_reverse, List.reverse_reverse]
    have hdrop : ∀ tys : List Ty, (tys.reverse ++ types).drop tys.length = types :=
      fun tys => List.drop_left' List.length_reverse
    simp only [htake, hdrop] at hcall
    simpa [Expr.script, performAll_scripts arguments, typeOf, Action.effect] using hcall.symm
  | .element name index line, types => by
    simp [Expr.script, performAll_script index, typeOf, Action.effect]
  | .binary op left right line, types => by
    simp [Expr.script, performAll_script left, performAll_script right, typeOf, Action.effect,
      Action.top]
  | .unary op operand line, types => by
    simp [Expr.script, performAll_script operand, typeOf, Action.effect, Action.top]

theorem performAll_scripts : ∀ (es : List Expr) (types : List Ty),
    performAll catalogue (Expr.scripts es) ⟨types, false⟩ = do
      let tys ← typesOf catalogue es
      return ⟨tys.reverse ++ types, false⟩
  | [], types => by simp [Expr.scripts, typesOf]
  | e :: rest, types => by
    simp [Expr.scripts, performAll_script e, performAll_scripts rest, typesOf]

end

/-! ### What is passed over -/

theorem perform_true (action : Action) (types : List Ty) :
    action.perform catalogue ⟨types, true⟩ = pure ⟨types, !action.isStore⟩ := rfl

theorem performAll_true {actions : List Action} (h : ∀ a ∈ actions, a.isStore = false)
    (types : List Ty) : performAll catalogue actions ⟨types, true⟩ = pure ⟨types, true⟩ := by
  induction actions with
  | nil => rfl
  | cons action rest ih =>
    rw [performAll_cons, perform_true, h action List.mem_cons_self, pure_bind]
    exact ih fun a ha => h a (List.mem_cons_of_mem _ ha)

end Analysis

namespace Action

/-- The step belongs to an expression. -/
def isTyping : Action → Bool
  | give _ | literal _ | name _ _ | element _ _ | call _ _ _ | binary _ _ | unary _ _ => true
  | _ => false

theorem isStore_of_isTyping {action : Action} (h : action.isTyping = true) :
    action.isStore = false := by
  cases action <;> first | rfl | cases h

end Action

namespace Expr

mutual

theorem isTyping_of_mem_script : ∀ (e : Expr), ∀ a ∈ e.script, a.isTyping = true
  | .absent | .placeholder _ _ | .literal _ _ _ | .identifier _ _ => by
    simp [script, Action.isTyping]
  | .call name arguments line => by
    have harguments := isTyping_of_mem_scripts arguments
    simp only [script, List.mem_append, List.mem_singleton]
    rintro a (ha | rfl)
    · exact harguments a ha
    · rfl
  | .element name index line => by
    have hindex := isTyping_of_mem_script index
    simp only [script, List.mem_append, List.mem_singleton]
    rintro a (ha | rfl)
    · exact hindex a ha
    · rfl
  | .binary op left right line => by
    have hleft := isTyping_of_mem_script left
    have hright := isTyping_of_mem_script right
    simp only [script, List.mem_append, List.mem_singleton]
    rintro a ((ha | ha) | rfl)
    · exact hleft a ha
    · exact hright a ha
    · rfl
  | .unary op operand line => by
    have hoperand := isTyping_of_mem_script operand
    simp only [script, List.mem_append, List.mem_singleton]
    rintro a (ha | rfl)
    · exact hoperand a ha
    · rfl

theorem isTyping_of_mem_scripts : ∀ (es : List Expr), ∀ a ∈ scripts es, a.isTyping = true
  | [] => fun _ ha => nomatch ha
  | e :: rest => by
    have he := isTyping_of_mem_script e
    have hrest := isTyping_of_mem_scripts rest
    simp only [scripts, List.mem_append]
    rintro a (ha | ha)
    · exact he a ha
    · exact hrest a ha

end

end Expr

namespace Analysis
variable {catalogue : Catalogue}

/-- The expressions of an assignment are passed over up to its end. -/
theorem performAll_passed (index value : Expr) (name : String) (line : Int) (types : List Ty) :
    performAll catalogue (index.script ++ value.script ++ [.store name line]) ⟨types, true⟩ =
      pure ⟨types, false⟩ := by
  have hskip : ∀ a ∈ index.script ++ value.script, a.isStore = false := by
    intro a ha
    rcases List.mem_append.mp ha with ha | ha
    · exact Action.isStore_of_isTyping (index.isTyping_of_mem_script a ha)
    · exact Action.isStore_of_isTyping (value.isTyping_of_mem_script a ha)
  rw [performAll_append, performAll_true hskip, pure_bind]
  rfl

/-! ### Declarations and statements -/

theorem performAll_variables (ty : Ty) (names : List DeclaredName) (types : List Ty) :
    performAll catalogue (names.map fun name => .variable name ty) ⟨types, false⟩ = do
      declareVariables ty names
      return ⟨types, false⟩ := by
  induction names with
  | nil => simp [declareVariables]
  | cons name rest ih => simp [declareVariables, Action.effect, ih]

theorem performAll_varSection (declarations : List VarDeclaration) (types : List Ty) :
    performAll catalogue (declarations.flatMap VarDeclaration.script) ⟨types, false⟩ = do
      walkVarSection declarations
      return ⟨types, false⟩ := by
  induction declarations with
  | nil => simp [walkVarSection]
  | cons d rest ih =>
    simp [walkVarSection, VarDeclaration.script, performAll_variables, ih]

theorem performAll_valueScript (declaration : ConstDeclaration) (types : List Ty) :
    performAll catalogue declaration.valueScript ⟨types, false⟩ = do
      let ty ← constantType catalogue declaration.value
      return ⟨ty :: types, false⟩ := by
  unfold ConstDeclaration.valueScript constantType
  cases declaration.value <;> first | rfl | exact performAll_script _ types

theorem performAll_constSection (declarations : List ConstDeclaration) (types : List Ty) :
    performAll catalogue (declarations.flatMap ConstDeclaration.script) ⟨types, false⟩ = do
      walkConstSection catalogue declarations
      return ⟨types, false⟩ := by
  induction declarations with
  | nil => simp [walkConstSection]
  | cons d rest ih =>
    simp only [List.flatMap_cons, performAll_append, ConstDeclaration.script_eq,
      performAll_valueScript, bind_assoc, walkConstSection]
    refine bind_congr fun ty => ?_
    simp only [pure_bind, performAll_cons, performAll_nil, perform_false, Action.effect,
      Action.top, List.headD_cons, List.tail_cons, bind_assoc]
    refine bind_congr fun declared => ?_
    cases declared <;> simp [ih]

theorem performAll_parameters (line : Int) (parameters : List Parameter) (types : List Ty) :
    performAll catalogue (parameters.map (.parameter line)) ⟨types, false⟩ = do
      declareParameters line parameters
      return ⟨types, false⟩ := by
  induction parameters with
  | nil => simp [declareParameters]
  | cons p rest ih =>
    simp only [List.map_cons, performAll_cons, perform_false, Action.effect, declareParameters,
      bind_assoc]
    refine bind_congr fun declared => ?_
    cases declared <;> simp [ih]

theorem performAll_routine (routine : DeclaredRoutine) (parameters : List Parameter)
    (types : List Ty) :
    performAll catalogue (routine.script parameters) ⟨types, false⟩ = do
      openRoutine routine parameters
      return ⟨types, false⟩ := by
  simp [DeclaredRoutine.script, openRoutine, Action.effect, performAll_parameters]

theorem performAll_assignment (target : String) (value index : Expr) (line : Int)
    (types : List Ty) :
    performAll catalogue (Node.assignment target value index line).script ⟨types, false⟩ = do
      walkAssignment catalogue target value index line
      return ⟨types, false⟩ := by
  have hpassed := @performAll_passed catalogue index value target line
  simp only [Node.script, List.cons_append, performAll_cons, perform_false, Action.effect,
    walkAssignment, bind_assoc]
  refine bind_congr fun symbol => ?_
  cases symbol with
  | none =>
    -- There is nothing to assign to: the walk ends here, and the rest of the script is passed over.
    simp only [bind_assoc, pure_bind, hpassed]
  | some symbol =>
    simp only [bind_assoc]
    refine bind_congr fun _ => ?_
    by_cases hconstant : symbol.category = .constant
    · simp only [hconstant, if_true, bind_assoc, pure_bind, hpassed]
    · simp only [hconstant, if_false, performAll_append, performAll_script, bind_assoc, pure_bind]
      refine bind_congr fun _ => bind_congr fun ty => ?_
      simp only [performAll_cons, performAll_nil, perform_false, Action.effect, Action.top,
        List.headD_cons, List.drop_succ_cons, List.drop_zero, bind_pure]
      split
      · simp
      · split <;> simp

theorem performAll_writeArguments (arguments : List WriteArgument) (types : List Ty) :
    performAll catalogue (arguments.flatMap WriteArgument.script) ⟨types, false⟩ = do
      walkWrite catalogue arguments
      return ⟨types, false⟩ := by
  induction arguments with
  | nil => simp [walkWrite]
  | cons argument rest ih =>
    simp [walkWrite, WriteArgument.script, performAll_script, Action.effect, ih]

theorem performAll_targets (routine : String) (targets : List Target) (types : List Ty) :
    performAll catalogue (targets.flatMap (Target.script routine)) ⟨types, false⟩ = do
      walkRead catalogue routine targets
      return ⟨types, false⟩ := by
  induction targets with
  | nil => simp [walkRead]
  | cons target rest ih =>
    cases target with
    | name n line =>
      simp [walkRead, walkIndex, Target.script, Target.variableName, Target.line, Action.effect, ih]
    | element n index line =>
      simp [walkRead, walkIndex, Target.script, Target.variableName, Target.line,
        performAll_script, Action.effect, ih]

theorem performAll_condition (condition : Expr) (statement : Conditional) (line : Int)
    (types : List Ty) :
    performAll catalogue (condition.script ++ [.condition statement line]) ⟨types, false⟩ = do
      checkCondition catalogue condition statement line
      return ⟨types, false⟩ := by
  simp only [performAll_append, performAll_script, checkCondition, performAll_cons,
    performAll_nil, perform_false, bind_assoc, pure_bind, bind_pure]
  refine bind_congr fun ty => ?_
  cases hty : ty.same .boolean || ty.isError <;> simp [Action.effect, Action.top, hty]

theorem performAll_bound (e : Expr) (which : Bound) (line : Int) (types : List Ty) :
    performAll catalogue (e.script ++ [.bound which line]) ⟨types, false⟩ = do
      checkBound catalogue which e line
      return ⟨types, false⟩ := by
  simp only [performAll_append, performAll_script, checkBound, performAll_cons, performAll_nil,
    perform_false, bind_assoc, pure_bind, bind_pure]
  refine bind_congr fun ty => ?_
  cases hty : ty.same .integer || ty.isError <;> simp [Action.effect, Action.top, hty]

theorem performAll_call (name : String) (arguments : List Expr) (line : Int) (types : List Ty) :
    performAll catalogue (Node.call name arguments line).script ⟨types, false⟩ = do
      walkCall catalogue name arguments line
      return ⟨types, false⟩ := by
  have hcall := @typesOf_bind catalogue _ arguments fun n tys => do
    checkCall catalogue name arguments.length line
    return (⟨(tys.reverse ++ types).drop n, false⟩ : Held)
  have hdrop : ∀ tys : List Ty, (tys.reverse ++ types).drop tys.length = types :=
    fun tys => List.drop_left' List.length_reverse
  simp only [hdrop] at hcall
  simpa [Node.script, performAll_scripts, walkCall_eq, Action.effect] using hcall.symm

mutual

/-- **Performing the script of a declaration or statement is the walk over it.** -/
theorem performAll_walk : ∀ (node : Node) (types : List Ty),
    performAll catalogue node.script ⟨types, false⟩ = do
      walk catalogue node
      return ⟨types, false⟩
  | .program _ declarations body _, types => by
    simp [Node.script, walk, performAll_walkAll declarations, performAll_walkBody body]
  | .varSection declarations _, types => performAll_varSection declarations types
  | .constSection declarations _, types => performAll_constSection declarations types
  | .function _ _ _ declarations body _, types | .procedure _ _ declarations body _, types => by
    simp [Node.script, walk, performAll_routine, performAll_walkAll declarations,
      performAll_walkBody body, Action.effect]
  | .block statements line, types => by
    simp [Node.script, walk, performAll_walkAll statements, Action.effect]
  | .assignment target value index line, types =>
    performAll_assignment target value index line types
  | .ifThen condition thenBranch elseBranch line, types => by
    have hcondition := @performAll_condition catalogue condition .ifThen line types
    rw [Node.script, performAll_append, performAll_append, hcondition]
    simp [walk, performAll_walk thenBranch, performAll_walk elseBranch]
  | .whileDo condition body line, types => by
    have hcondition := @performAll_condition catalogue condition .whileDo line types
    rw [Node.script, performAll_append, hcondition]
    simp [walk, performAll_walk body]
  | .forDo counter start finish _ body line, types => by
    have hstart := @performAll_bound catalogue start .start line types
    have hfinish := @performAll_bound catalogue finish .finish line types
    rw [Node.script, performAll_append, performAll_append, performAll_append, performAll_append,
      performAll_cons]
    simp only [perform_false, Action.effect, bind_assoc, pure_bind, hstart, hfinish,
      performAll_cons, performAll_nil, bind_pure, walk]
    refine bind_congr fun _ => bind_congr fun _ => bind_congr fun _ => ?_
    split <;> simp [performAll_walk body, Action.effect]
  | .repeatUntil statements condition line, types => by
    have hcondition := @performAll_condition catalogue condition .repeatUntil line types
    rw [Node.script, List.append_assoc, performAll_append, performAll_walkAll statements]
    simp only [bind_assoc, pure_bind, hcondition, walk]
  | .write _ arguments _, types => performAll_writeArguments arguments types
  | .read routine targets _, types => performAll_targets routine targets types
  | .call name arguments line, types => performAll_call name arguments line types
  | .expression e, types => by
    simp [Node.script, walk, performAll_script, Action.effect]
  | .fragment f, types => rfl

theorem performAll_walkAll : ∀ (nodes : List Node) (types : List Ty),
    performAll catalogue (Node.scripts nodes) ⟨types, false⟩ = do
      walkAll catalogue nodes
      return ⟨types, false⟩
  | [], types => by simp [Node.scripts, walkAll]
  | node :: rest, types => by
    simp [Node.scripts, walkAll, performAll_walk node, performAll_walkAll rest]

theorem performAll_walkBody : ∀ (body : Body) (types : List Ty),
    performAll catalogue body.script ⟨types, false⟩ = do
      walkBody catalogue body
      return ⟨types, false⟩
  | .missing, types => by simp [Body.script, walkBody]
  | .block statements _, types => performAll_walkAll statements types

end

/-! ## The points of a walk -/

/-- Performing the steps from the start of a run leads to the state, with what is held there. -/
def Reaches (catalogue : Catalogue) (actions : List Action) (held : Held) (s : AnalysisState) :
    Prop :=
  StateT.run (performAll catalogue actions {}) {} = .ok (held, s)

variable {actions rest : List Action} {action : Action} {held : Held} {s : AnalysisState}

theorem reaches_nil : Reaches catalogue [] held s ↔ held = {} ∧ s = {} := by
  constructor
  · intro h
    cases h
    exact ⟨rfl, rfl⟩
  · rintro ⟨rfl, rfl⟩
    rfl

theorem reaches_concat :
    Reaches catalogue (actions ++ [action]) held s ↔
      ∃ held' s', Reaches catalogue actions held' s' ∧
        StateT.run (action.perform catalogue held') s' = .ok (held, s) := by
  unfold Reaches
  rw [performAll_append, run_bind_eq_ok]
  simp only [performAll_cons, performAll_nil, bind_pure]

/-- What is performed to its end passes through all the points before. -/
theorem Reaches.before (h : Reaches catalogue (actions ++ rest) held s) :
    ∃ held' s', Reaches catalogue actions held' s' := by
  unfold Reaches at h
  rw [performAll_append, run_bind_eq_ok] at h
  obtain ⟨held', s', h, -⟩ := h
  exact ⟨held', s', h⟩

/-- A walk from the start of a run reaches the end of its script. -/
theorem reaches_of_walk {node : Node} (h : StateT.run (walk catalogue node) {} = .ok ((), s)) :
    Reaches catalogue node.script {} s := by
  unfold Reaches
  rw [performAll_walk, run_bind_eq_ok]
  exact ⟨(), s, h, rfl⟩

end Analysis
end PascalCheck
