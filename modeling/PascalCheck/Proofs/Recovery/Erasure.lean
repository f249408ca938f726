import PascalCheck.Proofs.Recovery.Record

/-! # The record changes nothing

Without the record, the walk that keeps one is the walk of the analysis: it gives a result from the
same states, and leads to the same states (`Recording.run_snd`). -/
namespace PascalCheck
namespace Recording

/-- Without its record, the first step is the second one. -/
def Erases {α : Type} (m : Recording α) (m' : Analysis α) : Prop :=
  ∀ s : AnalysisState,
    (StateT.run m.withRecord s).map (fun r => (r.1.1, r.2)) = StateT.run m' s

namespace Erases
variable {α β : Type}

theorem pure (a : α) : Erases (pure a) (pure a) :=
  fun _ => rfl

/-- A step of the analysis is such a step with an empty record. -/
theorem lift (m : Analysis α) : Erases m m := by
  intro s
  show (StateT.run (m >>= fun a => Pure.pure (a, [])) s).map _ = _
  rw [StateT.run_bind]
  cases StateT.run m s <;> rfl

/-- Two steps after each other, without their records. -/
theorem bind {m : Recording α} {m' : Analysis α} {f : α → Recording β} {f' : α → Analysis β}
    (h : Erases m m') (hf : ∀ a, Erases (f a) (f' a)) : Erases (m >>= f) (m' >>= f') := by
  intro s
  rw [StateT.run_bind, ← h s, run_bind]
  cases StateT.run m.withRecord s with
  | error => rfl
  | ok r =>
    show _ = StateT.run (f' r.1.1) r.2
    rw [← hf r.1.1 r.2]
    show Except.map _ (Except.map _ (StateT.run (f r.1.1).withRecord r.2)) = _
    cases StateT.run (f r.1.1).withRecord r.2 <;> rfl

/-- A record of a type is left out again. -/
theorem give {m : Recording Ty} {m' : Analysis Ty} (e : Expr) (h : Erases m m') :
    Erases (give e m) m' := by
  intro s
  rw [← h s]
  show (StateT.run (m.withRecord >>= fun r => Pure.pure (r.1, r.2 ++ [⟨e, r.1⟩])) s).map _ = _
  rw [StateT.run_bind]
  cases StateT.run m.withRecord s <;> rfl

end Erases

variable {catalogue : Catalogue}

/-! ## Expressions -/

mutual

/-- **Without the record, an expression has the type that the analysis gives it.** -/
theorem erases_typeOf : ∀ e : Expr, Erases (typeOf catalogue e) (Analysis.typeOf catalogue e)
  | .absent | .placeholder _ _ => .give _ (.pure _)
  | .literal _ _ _ | .identifier _ _ => .give _ (.lift _)
  | .call _ arguments _ => .give _ ((erases_typesOf arguments).bind fun _ => .lift _)
  | .element _ index _ => .give _ ((erases_typeOf index).bind fun _ => .lift _)
  | .binary _ left right _ =>
    .give _ ((erases_typeOf left).bind fun _ => (erases_typeOf right).bind fun _ => .lift _)
  | .unary _ operand _ => .give _ ((erases_typeOf operand).bind fun _ => .lift _)

theorem erases_typesOf : ∀ es : List Expr,
    Erases (typesOf catalogue es) (Analysis.typesOf catalogue es)
  | [] => .pure _
  | e :: rest => (erases_typeOf e).bind fun _ => (erases_typesOf rest).bind fun _ => .pure _

end

/-- An expression that is absent has the type of an error either way, recorded or not. -/
theorem erases_typeIfPresent (e : Expr) :
    Erases (typeIfPresent catalogue e) (Analysis.typeOf catalogue e) := by
  cases e with
  | absent => exact .pure _
  | _ => exact erases_typeOf _

/-- The value of a constant, which is an integer if it is absent. -/
theorem erases_constantType (value : Expr) :
    Erases (constantType catalogue value) (Analysis.constantType catalogue value) := by
  cases value with
  | absent => exact .pure _
  | _ => exact erases_typeOf _

/-! ## Declarations and statements -/

/-- Constants are declared one after the other. -/
theorem erases_walkConstSection (declarations : List ConstDeclaration) :
    Erases (walkConstSection catalogue declarations)
      (Analysis.walkConstSection catalogue declarations) := by
  induction declarations with
  | nil => exact .pure _
  | cons d rest ih =>
    refine (erases_constantType d.value).bind fun ty => (Erases.lift _).bind fun declared => ?_
    cases declared with
    | true => exact (Erases.lift _).bind fun _ => ih
    | false => exact ih

/-- An assignment is given up at its target in both walks, or in none. -/
theorem erases_walkAssignment (target : String) (value index : Expr) (line : Int) :
    Erases (walkAssignment catalogue target value index line)
      (Analysis.walkAssignment catalogue target value index line) := by
  refine (Erases.lift _).bind fun symbol => ?_
  cases symbol with
  | none => exact .lift _
  | some symbol =>
    refine (Erases.lift _).bind fun _ => ?_
    by_cases hconstant : symbol.category = .constant
    · rw [if_pos hconstant, if_pos hconstant]
      exact .lift _
    · rw [if_neg hconstant, if_neg hconstant]
      exact (erases_typeIfPresent index).bind fun _ => (erases_typeOf value).bind fun ty =>
        .lift (storeAssigned target symbol ty line)

theorem erases_checkCondition (condition : Expr) (statement : Conditional) (line : Int) :
    Erases (checkCondition catalogue condition statement line)
      (Analysis.checkCondition catalogue condition statement line) := by
  refine (erases_typeOf condition).bind fun ty => ?_
  split
  · exact .pure _
  · exact .lift _

/-- Either end of a range is looked at, even one that is missing. -/
theorem erases_checkBound (which : Bound) (e : Expr) (line : Int) :
    Erases (checkBound catalogue which e line) (Analysis.checkBound catalogue which e line) := by
  refine (erases_typeOf e).bind fun ty => ?_
  split
  · exact .pure _
  · exact .lift _

/-- What is written, with its width and decimals. -/
theorem erases_walkWrite (arguments : List WriteArgument) :
    Erases (walkWrite catalogue arguments) (Analysis.walkWrite catalogue arguments) := by
  induction arguments with
  | nil => exact .pure _
  | cons a rest ih =>
    exact (erases_typeOf a.value).bind fun _ => (erases_typeIfPresent a.width).bind fun _ =>
      (erases_typeIfPresent a.decimals).bind fun _ => ih

theorem erases_walkIndex (target : Target) :
    Erases (walkIndex catalogue target) (Analysis.walkIndex catalogue target) := by
  cases target with
  | name => exact .pure _
  | element _ index _ => exact (erases_typeOf index).bind fun _ => .pure _

/-- Only the index of a target has a type to record. -/
theorem erases_walkRead (routine : String) (targets : List Target) :
    Erases (walkRead catalogue routine targets) (Analysis.walkRead catalogue routine targets) := by
  induction targets with
  | nil => exact .pure _
  | cons target rest ih =>
    exact (erases_walkIndex target).bind fun _ => (Erases.lift _).bind fun _ => ih

/-- The arguments of a call have types to record; the check of the call is the same. -/
theorem erases_walkCall (name : String) (arguments : List Expr) (line : Int) :
    Erases (walkCall catalogue name arguments line)
      (Analysis.walkCall catalogue name arguments line) :=
  (erases_typesOf arguments).bind fun _ =>
    .lift (Analysis.checkCall catalogue name arguments.length line)

mutual

/-- **Without the record, the walk over a tree is the walk of the analysis.** -/
theorem erases_walk : ∀ node : Node, Erases (walk catalogue node) (Analysis.walk catalogue node)
  | .program _ declarations body _ =>
    (erases_walkAll declarations).bind fun _ => erases_walkBody body
  | .varSection _ _ => .lift _
  | .constSection declarations _ => erases_walkConstSection declarations
  | .function _ _ _ declarations body _ | .procedure _ _ declarations body _ =>
    (Erases.lift _).bind fun _ => (erases_walkAll declarations).bind fun _ =>
      (erases_walkBody body).bind fun _ => .lift _
  | .block statements _ =>
    (Erases.lift _).bind fun _ => (erases_walkAll statements).bind fun _ => .lift _
  | .assignment target value index line => erases_walkAssignment target value index line
  | .ifThen condition thenBranch elseBranch line =>
    (erases_checkCondition condition .ifThen line).bind fun _ =>
      (erases_walk thenBranch).bind fun _ => erases_walk elseBranch
  | .whileDo condition body line =>
    (erases_checkCondition condition .whileDo line).bind fun _ => erases_walk body
  | .forDo counter start finish _ body line => by
    have hbody := (erases_walk body).bind fun _ =>
      Erases.lift (Analysis.unprotect (Text.lower counter))
    refine (Erases.lift _).bind fun _ => (erases_checkBound .start start line).bind fun _ =>
      (erases_checkBound .finish finish line).bind fun _ => ?_
    dsimp only
    split
    · exact (Erases.lift _).bind fun _ => hbody
    · exact hbody
  | .repeatUntil statements condition line =>
    (erases_walkAll statements).bind fun _ => erases_checkCondition condition .repeatUntil line
  | .write _ arguments _ => erases_walkWrite arguments
  | .read routine targets _ => erases_walkRead routine targets
  | .call name arguments line => erases_walkCall name arguments line
  | .expression e => (erases_typeIfPresent e).bind fun _ => .pure _
  | .fragment _ => .lift _

theorem erases_walkAll : ∀ nodes : List Node,
    Erases (walkAll catalogue nodes) (Analysis.walkAll catalogue nodes)
  | [] => .pure _
  | node :: rest => (erases_walk node).bind fun _ => erases_walkAll rest

theorem erases_walkBody : ∀ body : Body,
    Erases (walkBody catalogue body) (Analysis.walkBody catalogue body)
  | .missing => .pure _
  | .block statements _ => erases_walkAll statements

end

/-- **The state after a run is the same with the record and without it.** -/
theorem run_snd (p : Program) :
    (run catalogue p).map (·.2) = Analysis.run catalogue p := by
  have herase : Erases (program catalogue p) (Analysis.program catalogue p) :=
    (erases_walk p.toNode).bind fun _ => .lift _
  rw [Analysis.run, ← herase {}, run]
  cases StateT.run (program catalogue p).withRecord {} <;> rfl

end Recording
end PascalCheck
