import PascalCheck.Analysis.Expression

/-! The walk over declarations and statements, in the order of the program. -/
namespace PascalCheck
namespace Analysis

variable (catalogue : Catalogue)

/-- Declares variables of one type. -/
def declareVariables (ty : Ty) : List DeclaredName → Analysis Unit
  | [] => pure ()
  | d :: rest => do
    let _ ← declare .variable d.name ty d.line .variable
    declareVariables ty rest

/-- A section of variables. -/
def walkVarSection : List VarDeclaration → Analysis Unit
  | [] => pure ()
  | d :: rest => do
    declareVariables (Ty.resolve d.typeSpec.name) d.names
    walkVarSection rest

/-- The type of a constant; one without a value is an integer. -/
def constantType (value : Expr) : Analysis Ty :=
  match value with
  | .absent => pure .integer
  | e => typeOf catalogue e

/-- A section of constants. A constant has its value from its declaration on. -/
def walkConstSection : List ConstDeclaration → Analysis Unit
  | [] => pure ()
  | d :: rest => do
    let ty ← constantType catalogue d.value
    if ← declare .constant d.name ty d.line .constant then
      changeTable (·.markInitialized d.name)
    walkConstSection rest

/-- The parameters of a routine. A parameter has a value from the start and counts as used. -/
def declareParameters (line : Int) : List Parameter → Analysis Unit
  | [] => pure ()
  | p :: rest => do
    let place := if p.line = 0 then line else p.line
    if ← declare .parameter p.name (Ty.resolve p.typeSpec.name) place .variable then
      changeTable (·.markInitialized p.name)
      changeTable (·.countUse p.name)
    declareParameters line rest

/-- Records a routine before its body is walked, so that the body may call it, and reports one
that is recorded already. -/
def enterRoutine (routine : DeclaredRoutine) : Analysis Unit := do
  match ← routine? routine.name with
  | some previous =>
    report routine.line
      (.routineRedeclared routine.kind routine.name previous.kind previous.line)
  | none => pure ()
  addRoutine routine

/-- The name of a function stands for its result inside the function. -/
def declareResult (routine : DeclaredRoutine) : Analysis Unit := do
  match routine.result with
  | some ty =>
    if ← declareSilently routine.name ty routine.line .result then
      changeTable (·.markInitialized routine.name)
  | none => pure ()

/-- What precedes the declarations of a routine: its record, its scope, its parameters and its
result. -/
def openRoutine (routine : DeclaredRoutine) (parameters : List Parameter) : Analysis Unit := do
  enterRoutine routine
  openScope routine.key
  declareParameters routine.line parameters
  declareResult routine

/-- An assignment. The value is stored even if its type is wrong, but not into a constant. -/
def walkAssignment (target : String) (value index : Expr) (line : Int) : Analysis Unit := do
  match ← symbol? target with
  | none => report line (.undeclared target)
  | some symbol =>
    checkNotCounter target line
    if symbol.category = .constant then
      report line (.constantAssigned target)
    else
      let _ ← typeOf catalogue index
      let ty ← typeOf catalogue value
      unless symbol.ty.accepts ty do
        if symbol.ty.same .integer && ty.same .real then report line (.narrowed target)
        else report line (.mismatch ty target symbol.ty)
      changeTable (·.markInitialized target)

/-- A condition, which must be a truth value. -/
def checkCondition (condition : Expr) (statement : Conditional) (line : Int) : Analysis Unit := do
  let ty ← typeOf catalogue condition
  unless ty.same .boolean || ty.isError do
    report line (.condition statement ty)

/-- The counter of a loop, which must be an integer variable. Its value is stored before the bounds
are looked at. -/
def checkCounter (name : String) (line : Int) : Analysis Unit := do
  if name ≠ "" then
    match ← symbol? name with
    | none => report line (.counterUndeclared name)
    | some symbol =>
      if symbol.category = .constant then report line (.counterConstant name)
      else
        unless symbol.ty.same .integer || symbol.ty.isError do
          report line (.counterType name symbol.ty)
        changeTable (·.markInitialized name)
        if symbol.category = .variable then
          changeTable (·.setCategory name .counter)

/-- A bound of a counter, which must be an integer. -/
def checkBound (which : Bound) (e : Expr) (line : Int) : Analysis Unit := do
  let ty ← typeOf catalogue e
  unless ty.same .integer || ty.isError do
    report line (.bound which ty)

/-- The values that a statement writes. -/
def walkWrite : List WriteArgument → Analysis Unit
  | [] => pure ()
  | a :: rest => do
    let _ ← typeOf catalogue a.value
    let _ ← typeOf catalogue a.width
    let _ ← typeOf catalogue a.decimals
    walkWrite rest

/-- The index of a target, if it is an element of an array. -/
def walkIndex : Target → Analysis Unit
  | .name _ _ => pure ()
  | .element _ index _ => do
    let _ ← typeOf catalogue index

/-- A value is read into a variable: that stores it and counts as a use. -/
def storeRead (routine : String) (name : String) (line : Int) : Analysis Unit := do
  match ← symbol? name with
  | none => report line (.readUndeclared name (Text.upper routine))
  | some symbol =>
    if symbol.ty.same .boolean then
      report line (.readBoolean name (Text.upper routine))
    checkNotCounter name line
    changeTable (·.markInitialized name)
    changeTable (·.countUse name)

/-- The places that a statement reads into, one after the other. -/
def walkRead (routine : String) : List Target → Analysis Unit
  | [] => pure ()
  | target :: rest => do
    walkIndex catalogue target
    storeRead routine target.variableName target.line
    walkRead routine rest

/-- What a call as a statement comes to, apart from its arguments. Built-in procedures come first,
then built-in functions, then the routines of the program. The key press that `readkey` waits for
may go unused. -/
def checkCall (name : String) (given : Nat) (line : Int) : Analysis Unit := do
  match catalogue.procedure? name with
  | some builtin =>
    unless builtin.accepts given do
      report line (.builtinArity .procedure name builtin.arity given)
  | none =>
    match catalogue.function? name with
    | some builtin => unless builtin.name = "readkey" do report line (.resultUnused name)
    | none =>
      match ← routine? name with
      | some routine =>
        unless given = routine.parameters do
          report line (.routineArity routine.kind name routine.parameters given)
      | none =>
        if (← symbol? name).isSome then report line (.variableCalled name)
        else report line (.unknownProcedure name)

/-- A call as a statement. -/
def walkCall (name : String) (arguments : List Expr) (line : Int) : Analysis Unit := do
  let _ ← typesOf catalogue arguments
  checkCall catalogue name arguments.length line

mutual

/-- Walks a declaration or statement. -/
def walk : Node → Analysis Unit
  | .program _ declarations body _ => do
    walkAll declarations
    walkBody body
  | .varSection declarations _ => walkVarSection declarations
  | .constSection declarations _ => walkConstSection catalogue declarations
  | .function name parameters result declarations body line => do
    openRoutine ⟨name, some (Ty.resolve result.name), parameters.length, line⟩ parameters
    walkAll declarations
    walkBody body
    closeScope
  | .procedure name parameters declarations body line => do
    openRoutine ⟨name, none, parameters.length, line⟩ parameters
    walkAll declarations
    walkBody body
    closeScope
  | .block statements line => do
    openScope s!"block_line_{line}"
    walkAll statements
    closeScope
  | .assignment target value index line => walkAssignment catalogue target value index line
  | .ifThen condition thenBranch elseBranch line => do
    checkCondition catalogue condition .ifThen line
    walk thenBranch
    walk elseBranch
  | .whileDo condition body line => do
    checkCondition catalogue condition .whileDo line
    walk body
  | .forDo counter start finish _ body line => do
    checkCounter counter line
    checkBound catalogue .start start line
    checkBound catalogue .finish finish line
    let key := Text.lower counter
    if key ≠ "" then protect key
    walk body
    unprotect key
  | .repeatUntil statements condition line => do
    walkAll statements
    checkCondition catalogue condition .repeatUntil line
  | .write _ arguments _ => walkWrite catalogue arguments
  | .read routine targets _ => walkRead catalogue routine targets
  | .call name arguments line => walkCall catalogue name arguments line
  | .expression e => do
    let _ ← typeOf catalogue e
  | .fragment f => throw (.noRule f.kindName)

/-- Walks declarations or statements in order. -/
def walkAll : List Node → Analysis Unit
  | [] => pure ()
  | node :: rest => do
    walk node
    walkAll rest

/-- Walks the statements of a program or routine, which open no scope of their own. -/
def walkBody : Body → Analysis Unit
  | .missing => pure ()
  | .block statements _ => walkAll statements

end

end Analysis
end PascalCheck
