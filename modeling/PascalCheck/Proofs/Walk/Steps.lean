import PascalCheck.Proofs.Walk.Script

/-! # What all steps of a script have in common

A property of steps that the steps of expressions have is one of a whole script if the few other
steps in it have it: for each kind of script a lemma says which these are. -/
namespace PascalCheck

/-- All of the steps have the property. -/
def AllSteps (P : Action → Prop) (actions : List Action) : Prop :=
  ∀ action ∈ actions, P action

namespace AllSteps
variable {P : Action → Prop} {actions rest : List Action} {action : Action} {α : Type}

theorem nil : AllSteps P [] := nofun

theorem cons (h : P action) (hrest : AllSteps P rest) : AllSteps P (action :: rest) :=
  List.forall_mem_cons.mpr ⟨h, hrest⟩

theorem single (h : P action) : AllSteps P [action] :=
  .cons h .nil

theorem append (h : AllSteps P actions) (h' : AllSteps P rest) : AllSteps P (actions ++ rest) :=
  List.forall_mem_append.mpr ⟨h, h'⟩

/-- What all items have in their steps, a list of items has. -/
theorem flatMap {f : α → List Action} {items : List α} (h : ∀ item ∈ items, AllSteps P (f item)) :
    AllSteps P (items.flatMap f) := by
  intro action hmem
  obtain ⟨item, hitem, haction⟩ := List.mem_flatMap.mp hmem
  exact h item hitem action haction

theorem map {f : α → Action} (h : ∀ item, P (f item)) (items : List α) :
    AllSteps P (items.map f) := by
  intro action hmem
  obtain ⟨item, -, rfl⟩ := List.mem_map.mp hmem
  exact h item

end AllSteps

/-- The steps of expressions have the property. -/
def HoldsOfTyping (P : Action → Prop) : Prop :=
  ∀ action : Action, action.isTyping = true → P action

namespace HoldsOfTyping
variable {P : Action → Prop} (h : HoldsOfTyping P)
include h

/-- The steps of an expression are those that type it. -/
theorem script (e : Expr) : AllSteps P e.script :=
  fun action hmem => h action (e.isTyping_of_mem_script action hmem)

theorem scripts (es : List Expr) : AllSteps P (Expr.scripts es) :=
  fun action hmem => h action (Expr.isTyping_of_mem_scripts es action hmem)

/-- An expression, and a step that uses its type. -/
theorem used (e : Expr) {action : Action} (haction : P action) :
    AllSteps P (e.script ++ [action]) :=
  (h.script e).append (.single haction)

/-- A section of constants types their values and declares them. -/
theorem constSection (hconstant : ∀ n line, P (.constant n line))
    (declarations : List ConstDeclaration) :
    AllSteps P (declarations.flatMap ConstDeclaration.script) := by
  refine .flatMap fun d _ => AllSteps.append ?_ (.single (hconstant d.name d.line))
  split
  · exact .single (h _ rfl)
  · exact h.script _

/-- An argument of `write` is three expressions whose types are dropped. -/
theorem writeArguments (hdiscard : P (.discard 3)) (arguments : List WriteArgument) :
    AllSteps P (arguments.flatMap WriteArgument.script) :=
  .flatMap fun argument _ => (((h.script argument.value).append (h.script argument.width)).append
    (h.script argument.decimals)).append (.single hdiscard)

/-- A place to read into is its index, if any, and the step that stores there. -/
theorem targets (hdiscard : P (.discard 1)) {routine : String} {targets : List Target}
    (hread : ∀ target ∈ targets, P (.read routine target.variableName target.line)) :
    AllSteps P (targets.flatMap (Target.script routine)) := by
  refine .flatMap fun target hmem => ?_
  have htarget := hread target hmem
  cases target with
  | name n line => exact .single htarget
  | element n index line => exact (h.script index).append (.cons hdiscard (.single htarget))

/-- A call in a statement types its arguments, drops their types, and checks the call. -/
theorem call {name : String} {arguments : List Expr} {line : Int}
    (hdiscard : P (.discard arguments.length)) (hinvoke : P (.invoke name arguments.length line)) :
    AllSteps P (Node.call name arguments line).script :=
  (h.scripts arguments).append (.cons hdiscard (.single hinvoke))

/-- What precedes the body of a loop that counts. -/
theorem bounds {counter : String} {start finish : Expr} {line : Int}
    (hcounter : P (.counter counter line)) (hbound : ∀ which, P (.bound which line)) :
    AllSteps P (.counter counter line :: (start.script ++ [.bound .start line]) ++
      (finish.script ++ [.bound .finish line])) := by
  have hhead : AllSteps P (.counter counter line :: (start.script ++ [.bound .start line])) :=
    .cons hcounter (h.used start (hbound .start))
  exact hhead.append (h.used finish (hbound .finish))

end HoldsOfTyping

/-- What stands in a routine in front of its declarations. -/
theorem DeclaredRoutine.allSteps_head (routine : DeclaredRoutine) (P : Action → Prop)
    (hparameter : ∀ p, P (.parameter routine.line p)) (hresult : P (.result routine))
    (parameters : List Parameter) :
    AllSteps P (parameters.map (.parameter routine.line) ++ [.result routine]) :=
  .append (.map hparameter parameters) (.single hresult)

/-- A section of variables has no steps but declarations. -/
theorem VarDeclaration.allSteps_scripts {P : Action → Prop} (h : ∀ n ty, P (.variable n ty))
    (declarations : List VarDeclaration) :
    AllSteps P (declarations.flatMap VarDeclaration.script) :=
  .flatMap fun d _ => AllSteps.map (fun name => h name _) d.names

end PascalCheck
