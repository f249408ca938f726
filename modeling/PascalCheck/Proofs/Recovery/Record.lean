import PascalCheck.Analysis.Summary

/-! # The types that a run gives

An analysis keeps no record of the types of expressions.  Here is the walk with such a record: each
step that finds the type of an expression also tells of it, for the parts of the expression too, in
the order in which they are found. -/
namespace PascalCheck

/-- An expression and the type that a run gives it. -/
structure GivenType where
  expression : Expr
  ty : Ty

/-- A step of an analysis that has, beside its value, a record of the types that it gives. -/
structure Recording (α : Type) where
  withRecord : Analysis (α × List GivenType)

namespace Recording

/-- One step after the other: their records stand in that order. -/
instance : Monad Recording where
  pure a := ⟨pure (a, [])⟩
  bind m f := ⟨do
    let r ← m.withRecord
    let r' ← (f r.1).withRecord
    return (r'.1, r.2 ++ r'.2)⟩

/-- A step of the analysis itself records nothing. -/
instance : MonadLift Analysis Recording where
  monadLift m := ⟨do return (← m, [])⟩

open Analysis (changeTable checkCall checkCounter checkNotCounter closeScope declare openRoutine
  openScope protect report storeRead symbol? unprotect)

variable (catalogue : Catalogue)

/-- The step, and then a record of the type that it gives to an expression. -/
def give (e : Expr) (step : Recording Ty) : Recording Ty :=
  ⟨do
    let r ← step.withRecord
    return (r.1, r.2 ++ [⟨e, r.1⟩])⟩

mutual

/-- The type of an expression. -/
def typeOf : Expr → Recording Ty
  | .absent => give .absent (pure .error)
  | .literal value typeName line =>
    give (.literal value typeName line) (Analysis.literalType typeName)
  | .identifier name line => give (.identifier name line) (Analysis.nameType catalogue name line)
  | .call name arguments line => give (.call name arguments line) do
    let types ← typesOf arguments
    Analysis.callType catalogue name types line
  | .element name index line => give (.element name index line) do
    let _ ← typeOf index
    Analysis.elementType name line
  | .binary op left right line => give (.binary op left right line) do
    let l ← typeOf left
    let r ← typeOf right
    Analysis.binaryType op l r line
  | .unary op operand line => give (.unary op operand line) do
    let t ← typeOf operand
    Analysis.unaryType op t line
  | .placeholder text line => give (.placeholder text line) (pure .error)

/-- The types of expressions, in order. -/
def typesOf : List Expr → Recording (List Ty)
  | [] => pure []
  | e :: rest => do
    let t ← typeOf e
    let ts ← typesOf rest
    return t :: ts

end

/-- The type of an expression that may be absent; then there is nothing to record. -/
def typeIfPresent : Expr → Recording Ty
  | .absent => pure .error
  | e => typeOf catalogue e

/-- The type of a constant; one without a value is an integer. -/
def constantType : Expr → Recording Ty
  | .absent => pure .integer
  | e => typeOf catalogue e

def walkConstSection : List ConstDeclaration → Recording Unit
  | [] => pure ()
  | d :: rest => do
    let ty ← constantType catalogue d.value
    if ← declare .constant d.name ty d.line .constant then
      changeTable (·.markInitialized d.name)
    walkConstSection rest

/-- What an assignment does when the type of its value is known. -/
def storeAssigned (target : String) (symbol : Symbol) (ty : Ty) (line : Int) : Analysis Unit := do
  unless symbol.ty.accepts ty do
    if symbol.ty.same .integer && ty.same .real then report line (.narrowed target)
    else report line (.mismatch ty target symbol.ty)
  changeTable (·.markInitialized target)

def walkAssignment (target : String) (value index : Expr) (line : Int) : Recording Unit := do
  match ← symbol? target with
  | none => report line (.undeclared target)
  | some symbol =>
    checkNotCounter target line
    if symbol.category = .constant then
      report line (.constantAssigned target)
    else
      let _ ← typeIfPresent catalogue index
      let ty ← typeOf catalogue value
      storeAssigned target symbol ty line

def checkCondition (condition : Expr) (statement : Conditional) (line : Int) :
    Recording Unit := do
  let ty ← typeOf catalogue condition
  unless ty.same .boolean || ty.isError do
    report line (.condition statement ty)

def checkBound (which : Bound) (e : Expr) (line : Int) : Recording Unit := do
  let ty ← typeOf catalogue e
  unless ty.same .integer || ty.isError do
    report line (.bound which ty)

def walkWrite : List WriteArgument → Recording Unit
  | [] => pure ()
  | a :: rest => do
    let _ ← typeOf catalogue a.value
    let _ ← typeIfPresent catalogue a.width
    let _ ← typeIfPresent catalogue a.decimals
    walkWrite rest

def walkIndex : Target → Recording Unit
  | .name _ _ => pure ()
  | .element _ index _ => do
    let _ ← typeOf catalogue index

def walkRead (routine : String) : List Target → Recording Unit
  | [] => pure ()
  | target :: rest => do
    walkIndex catalogue target
    storeRead routine target.variableName target.line
    walkRead routine rest

def walkCall (name : String) (arguments : List Expr) (line : Int) : Recording Unit := do
  let _ ← typesOf catalogue arguments
  checkCall catalogue name arguments.length line

mutual

/-- Walks a declaration or statement. -/
def walk : Node → Recording Unit
  | .program _ declarations body _ => do
    walkAll declarations
    walkBody body
  | .varSection declarations _ => Analysis.walkVarSection declarations
  | .constSection declarations _ => walkConstSection catalogue declarations
  | .function name parameters result declarations body line => do
    openRoutine ⟨name, some (Ty.resolve result.name), parameters.length, line⟩ parameters
    walkAll declarations
    walkBody body
    closeScope
  | .procedure name parameters declarations body line => do
    openRoutine ⟨name, none, parameters.length, line⟩ parameters
    walkAll declarations
    walkBody body
    closeScope
  | .block statements line => do
    openScope s!"block_line_{line}"
    walkAll statements
    closeScope
  | .assignment target value index line => walkAssignment catalogue target value index line
  | .ifThen condition thenBranch elseBranch line => do
    checkCondition catalogue condition .ifThen line
    walk thenBranch
    walk elseBranch
  | .whileDo condition body line => do
    checkCondition catalogue condition .whileDo line
    walk body
  | .forDo counter start finish _ body line => do
    checkCounter counter line
    -- The end of the range is looked at also where it is absent.
    checkBound catalogue .start start line
    checkBound catalogue .finish finish line
    let key := Text.lower counter
    if key ≠ "" then protect key
    walk body
    unprotect key
  | .repeatUntil statements condition line => do
    walkAll statements
    checkCondition catalogue condition .repeatUntil line
  | .write _ arguments _ => walkWrite catalogue arguments
  | .read routine targets _ => walkRead catalogue routine targets
  | .call name arguments line => walkCall catalogue name arguments line
  | .expression e => do
    let _ ← typeIfPresent catalogue e
  | .fragment f => (throw (.noRule f.kindName) : Analysis Unit)

def walkAll : List Node → Recording Unit
  | [] => pure ()
  | node :: rest => do
    walk node
    walkAll rest

def walkBody : Body → Recording Unit
  | .missing => pure ()
  | .block statements _ => walkAll statements

end

/-- Analyses a program. -/
def program (p : Program) : Recording Unit := do
  walk catalogue p.toNode
  Analysis.summarize

/-- The types that the analysis of a program gives, and the state after it. -/
def run (p : Program) : Except Fault (List GivenType × AnalysisState) := do
  let (((), given), state) ← StateT.run (program catalogue p).withRecord {}
  return (given, state)

/-! ## Steps -/

section
variable {α β : Type}

/-- What two steps one after the other record is what the first one records and then what the second
one does. -/
theorem run_bind (m : Recording α) (f : α → Recording β) (s : AnalysisState) :
    StateT.run (m >>= f).withRecord s =
      StateT.run m.withRecord s >>= fun r =>
        (StateT.run (f r.1.1).withRecord r.2).map fun r' =>
          ((r'.1.1, r.1.2 ++ r'.1.2), r'.2) := by
  rw [show (m >>= f).withRecord = m.withRecord >>= fun r => (f r.1).withRecord >>= fun r' =>
    pure (r'.1, r.2 ++ r'.2) from rfl, StateT.run_bind]
  cases StateT.run m.withRecord s with
  | error => rfl
  | ok r =>
    show StateT.run ((f r.1.1).withRecord >>= fun r' => pure (r'.1, r.1.2 ++ r'.2)) r.2 =
      (StateT.run (f r.1.1).withRecord r.2).map _
    rw [StateT.run_bind]
    cases StateT.run (f r.1.1).withRecord r.2 <;> rfl

theorem exists_of_run_bind {m : Recording α} {f : α → Recording β} {s s'' : AnalysisState} {b : β}
    {recorded : List GivenType}
    (h : StateT.run (m >>= f).withRecord s = .ok ((b, recorded), s'')) :
    ∃ a before s' after, StateT.run m.withRecord s = .ok ((a, before), s') ∧
      StateT.run (f a).withRecord s' = .ok ((b, after), s'') ∧ recorded = before ++ after := by
  rw [run_bind] at h
  cases hm : StateT.run m.withRecord s with
  | error =>
    rw [hm] at h
    cases h
  | ok r =>
    obtain ⟨⟨a, before⟩, s'⟩ := r
    rw [hm] at h
    change Except.map _ (StateT.run (f a).withRecord s') = _ at h
    cases hf : StateT.run (f a).withRecord s' with
    | error =>
      rw [hf] at h
      cases h
    | ok r' =>
      rw [hf] at h
      cases h
      exact ⟨a, before, s', _, rfl, hf, rfl⟩

end

end Recording
end PascalCheck
