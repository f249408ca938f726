import PascalCheck.Proofs.Walk.Steps

/-! # What all scripts have in common

A script is put together from those of expressions and of constants, from the heads of the loops
that count, and from single steps.  What holds of these parts, and of one part behind another, holds
of every script (`HoldsOfParts.ofNode`). -/
namespace PascalCheck

/-- The step needs no others around it: it is neither a call in an expression, which needs
arguments, nor a constant, which needs a value, nor one of the two that begin and end the head of a
loop. -/
def Action.isSingle : Action → Bool
  | call _ _ _ | constant _ _ | counter _ _ | enterLoop _ => false
  | _ => true

/-- What precedes the body of a loop that counts: its counter, its bounds, and the start. -/
def Action.loopHead (counter : String) (start finish : Expr) (line : Int) : List Action :=
  .counter counter line :: (start.script ++ [.bound .start line]) ++
    (finish.script ++ [.bound .finish line]) ++ [.enterLoop counter]

/-- A step of two parts of a script belongs to the first one or to the second. -/
theorem Action.split_append {actions more front rest : List Action} {action : Action}
    (h : actions ++ more = front ++ action :: rest) :
    (∃ inner, actions = front ++ action :: inner) ∨
      ∃ outer, front = actions ++ outer ∧ more = outer ++ action :: rest := by
  rcases List.append_eq_append_iff.mp h with ⟨outer, hfront, hmore⟩ | ⟨between, hfront, hmore⟩
  · exact .inr ⟨outer, hfront, hmore⟩
  · cases between with
    | nil => exact .inr ⟨[], by rw [hfront, List.append_nil, List.append_nil], hmore.symm⟩
    | cons first inner =>
      obtain ⟨rfl, -⟩ := List.cons.inj hmore
      exact .inl ⟨inner, hfront⟩

/-- The property holds of the parts of scripts. -/
structure HoldsOfParts (Q : List Action → Prop) : Prop where
  nil : Q []
  append : ∀ {actions rest : List Action}, Q actions → Q rest → Q (actions ++ rest)
  single : ∀ {action : Action}, action.isSingle = true → Q [action]
  expression : ∀ e : Expr, Q e.script
  constant : ∀ {declaration : ConstDeclaration}, Q declaration.valueScript → Q declaration.script
  head : ∀ counter start finish line, Q (Action.loopHead counter start finish line)

namespace HoldsOfParts
variable {Q : List Action → Prop} (h : HoldsOfParts Q)
include h

theorem cons {action : Action} {rest : List Action} (haction : action.isSingle = true)
    (hrest : Q rest) : Q (action :: rest) :=
  h.append (h.single haction) hrest

/-- An expression, and a step that uses its type. -/
theorem used (e : Expr) {action : Action} (haction : action.isSingle = true) :
    Q (e.script ++ [action]) :=
  h.append (h.expression e) (h.single haction)

theorem steps {actions : List Action} (hsteps : AllSteps (·.isSingle = true) actions) :
    Q actions := by
  induction actions with
  | nil => exact h.nil
  | cons action rest ih =>
    obtain ⟨haction, hrest⟩ := List.forall_mem_cons.mp hsteps
    exact h.cons haction (ih hrest)

theorem flatMap {α : Type} {f : α → List Action} {items : List α}
    (hitems : ∀ item ∈ items, Q (f item)) : Q (items.flatMap f) := by
  induction items with
  | nil => exact h.nil
  | cons item rest ih =>
    rw [List.flatMap_cons]
    exact h.append (hitems item List.mem_cons_self)
      (ih fun other hmem => hitems other (List.mem_cons_of_mem _ hmem))

theorem expressions (es : List Expr) : Q (Expr.scripts es) := by
  induction es with
  | nil => exact h.nil
  | cons e rest ih => exact h.append (h.expression e) ih

theorem constDeclaration (declaration : ConstDeclaration) : Q declaration.script := by
  refine h.constant ?_
  rcases declaration.valueScript_cases with hvalue | hvalue
  · exact hvalue ▸ h.single rfl
  · exact hvalue ▸ h.expression declaration.value

theorem writeArgument (argument : WriteArgument) : Q argument.script :=
  h.append (h.append (h.append (h.expression argument.value) (h.expression argument.width))
    (h.expression argument.decimals)) (h.single rfl)

theorem target (routine : String) (target : Target) : Q (target.script routine) := by
  cases target with
  | name n line => exact h.single rfl
  | element n index line => exact h.append (h.expression index) (h.cons rfl (h.single rfl))

theorem routine (routine : DeclaredRoutine) (parameters : List Parameter) :
    Q (routine.script parameters) :=
  h.cons rfl (h.steps (routine.allSteps_head (·.isSingle = true) (fun _ => rfl) rfl parameters))

mutual

/-- **What holds of the parts holds of every script.** -/
theorem ofNode : ∀ node : Node, Q node.script
  | .program _ declarations body _ => h.append (ofNodes declarations) (ofBody body)
  | .varSection declarations _ =>
    h.steps (VarDeclaration.allSteps_scripts (fun _ _ => rfl) declarations)
  | .constSection _ _ => h.flatMap fun declaration _ => h.constDeclaration declaration
  | .function _ parameters _ declarations body _ | .procedure _ parameters declarations body _ =>
    h.append (h.append (h.append (h.routine _ parameters) (ofNodes declarations)) (ofBody body))
      (h.single rfl)
  | .block statements _ => h.append (h.cons rfl (ofNodes statements)) (h.single rfl)
  | .assignment _ value index _ =>
    h.append (h.append (h.cons rfl (h.expression index)) (h.expression value)) (h.single rfl)
  | .ifThen condition thenBranch elseBranch _ =>
    h.append (h.append (h.used condition rfl) (ofNode thenBranch)) (ofNode elseBranch)
  | .whileDo condition body _ => h.append (h.used condition rfl) (ofNode body)
  | .forDo counter start finish _ body line =>
    h.append (h.append (h.head counter start finish line) (ofNode body)) (h.single rfl)
  | .repeatUntil statements condition _ =>
    h.append (h.append (ofNodes statements) (h.expression condition)) (h.single rfl)
  | .write _ _ _ => h.flatMap fun argument _ => h.writeArgument argument
  | .read routine _ _ => h.flatMap fun target _ => h.target routine target
  | .call _ arguments _ => h.append (h.expressions arguments) (h.cons rfl (h.single rfl))
  | .expression e => h.used e rfl
  | .fragment _ => h.single rfl

theorem ofNodes : ∀ nodes : List Node, Q (Node.scripts nodes)
  | [] => h.nil
  | node :: rest => h.append (ofNode node) (ofNodes rest)

theorem ofBody : ∀ body : Body, Q body.script
  | .missing => h.nil
  | .block statements _ => ofNodes statements

end

end HoldsOfParts
end PascalCheck
