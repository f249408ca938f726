import PascalCheck.Proofs.Walk.Steps

/-! # The positions of a program

The script of a program is flat; its tree says what each step stands in.  The layout of a part of a
program (`Node.layout`) gives the steps of its script, each with the routines, blocks, loops and
assignments around it and the steps in front of it.  From one position to the next an enclosure is
entered or left, or none (`Leads`), and a whole part leads back to where it began
(`Node.isClosed_layout`), so that what the steps keep holds at every position
(`Route.concat_induction`). -/
namespace PascalCheck

/-- What a step of a walk can stand in. -/
inductive Enclosure where
  | routine (name : String)
  | block (line : Int)
  /-- The body of a loop that counts. -/
  | loop (counter : String)
  | assignment

/-- An enclosure, and the steps of the script in front of what it encloses. -/
structure Surrounding where
  enclosure : Enclosure
  front : List Action

/-- A step of a walk, what it stands in, the innermost first, and the steps in front of it. -/
structure Position where
  around : List Surrounding
  before : List Action
  action : Action

/-! ## Layouts -/

/-- The positions of a part of a program, from what stands around the part and in front of it. -/
abbrev Layout := List Surrounding → List Action → List Position

namespace Layout

/-- Steps that enclose nothing. -/
def steps : List Action → Layout
  | [], _, _ => []
  | action :: rest, around, before =>
    ⟨around, before, action⟩ :: steps rest around (before ++ [action])

/-- One part behind another. -/
def andThen (first second : Layout) : Layout := fun around before =>
  let positions := first around before
  positions ++ second around (before ++ positions.map Position.action)

/-- A part in an enclosure, between the step that enters it and the one that leaves it. -/
def inside (enclosure : Enclosure) (enter : Action) (inner : Layout) (leave : Action) : Layout :=
  fun around before =>
    let within := ⟨enclosure, before ++ [enter]⟩ :: around
    let positions := inner within (before ++ [enter])
    ⟨around, before, enter⟩ :: positions ++
      [⟨within, before ++ enter :: positions.map Position.action, leave⟩]

end Layout

/-- A routine encloses its parameters, its result, its declarations and its statements. -/
def DeclaredRoutine.layout (routine : DeclaredRoutine) (parameters : List Parameter)
    (inner : Layout) : Layout :=
  .inside (.routine routine.name) (.enterRoutine routine)
    ((Layout.steps (parameters.map (.parameter routine.line) ++ [.result routine])).andThen inner)
    .leaveRoutine

mutual

/-- The positions of a declaration or statement. The statements of a program or routine stand in no
block. -/
@[simp] def Node.layout : Node → Layout
  | .program _ declarations body _ => (Node.layouts declarations).andThen (Body.layout body)
  | .varSection declarations _ => .steps (declarations.flatMap VarDeclaration.script)
  | .constSection declarations _ => .steps (declarations.flatMap ConstDeclaration.script)
  | .function name parameters result declarations body line =>
    DeclaredRoutine.layout ⟨name, some (Ty.resolve result.name), parameters.length, line⟩
      parameters ((Node.layouts declarations).andThen (Body.layout body))
  | .procedure name parameters declarations body line =>
    DeclaredRoutine.layout ⟨name, none, parameters.length, line⟩ parameters
      ((Node.layouts declarations).andThen (Body.layout body))
  | .block statements line =>
    .inside (.block line) (.openBlock line) (Node.layouts statements) .closeBlock
  | .assignment target value index line =>
    .inside .assignment (.target target line) (.steps (index.script ++ value.script))
      (.store target line)
  | .ifThen condition thenBranch elseBranch line =>
    ((Layout.steps (condition.script ++ [.condition .ifThen line])).andThen
      (Node.layout thenBranch)).andThen (Node.layout elseBranch)
  | .whileDo condition body line =>
    (Layout.steps (condition.script ++ [.condition .whileDo line])).andThen (Node.layout body)
  | .forDo counter start finish _ body line =>
    (Layout.steps (.counter counter line :: (start.script ++ [.bound .start line]) ++
      (finish.script ++ [.bound .finish line]))).andThen
        (.inside (.loop counter) (.enterLoop counter) (Node.layout body) (.leaveLoop counter))
  | .repeatUntil statements condition line =>
    (Node.layouts statements).andThen
      (.steps (condition.script ++ [.condition .repeatUntil line]))
  | .write _ arguments _ => .steps (arguments.flatMap WriteArgument.script)
  | .read routine targets _ => .steps (targets.flatMap (Target.script routine))
  | .call name arguments line =>
    .steps (Expr.scripts arguments ++
      [.discard arguments.length, .invoke name arguments.length line])
  | .expression e => .steps (e.script ++ [.discard 1])
  | .fragment f => .steps [.fragment f]

@[simp] def Node.layouts : List Node → Layout
  | [] => .steps []
  | node :: rest => (Node.layout node).andThen (Node.layouts rest)

@[simp] def Body.layout : Body → Layout
  | .missing => .steps []
  | .block statements _ => Node.layouts statements

end

/-- The positions of a program, in the order of the walk. -/
def Program.positions (p : Program) : List Position :=
  p.toNode.layout [] []

/-! ## The steps of a layout are the script -/

namespace Layout
variable (around : List Surrounding) (before : List Action)

@[simp] theorem map_action_steps (actions : List Action) :
    (steps actions around before).map Position.action = actions := by
  induction actions generalizing before with
  | nil => rfl
  | cons action rest ih => simp [steps, ih]

@[simp] theorem map_action_andThen (first second : Layout) :
    (first.andThen second around before).map Position.action =
      (first around before).map Position.action ++
        (second around (before ++ (first around before).map Position.action)).map
          Position.action := by
  simp [andThen]

@[simp] theorem map_action_inside (enclosure : Enclosure) (enter leave : Action)
    (inner : Layout) :
    (inside enclosure enter inner leave around before).map Position.action =
      enter :: (inner (⟨enclosure, before ++ [enter]⟩ :: around)
        (before ++ [enter])).map Position.action ++ [leave] := by
  simp [inside]

end Layout

mutual

/-- **The steps of a layout are the script.** -/
theorem Node.map_action_layout : ∀ (node : Node) (around : List Surrounding)
    (before : List Action), (node.layout around before).map Position.action = node.script
  | .program _ declarations body _, around, before => by
    simp [Node.script, Node.map_action_layouts declarations, Body.map_action_layout body]
  | .function _ _ _ declarations body _, around, before
  | .procedure _ _ declarations body _, around, before => by
    simp [Node.script, DeclaredRoutine.layout, DeclaredRoutine.script,
      Node.map_action_layouts declarations, Body.map_action_layout body]
  | .block statements line, around, before => by
    simp [Node.script, Node.map_action_layouts statements]
  | .assignment target value index line, around, before => by
    simp [Node.script]
  | .ifThen condition thenBranch elseBranch line, around, before => by
    simp [Node.script, Node.map_action_layout thenBranch, Node.map_action_layout elseBranch]
  | .whileDo condition body line, around, before => by
    simp [Node.script, Node.map_action_layout body]
  | .forDo counter start finish _ body line, around, before => by
    simp [Node.script, Node.map_action_layout body]
  | .repeatUntil statements condition line, around, before => by
    simp [Node.script, Node.map_action_layouts statements]
  | .varSection _ _, _, _ | .constSection _ _, _, _ | .write _ _ _, _, _ | .read _ _ _, _, _
  | .call _ _ _, _, _ | .expression _, _, _ | .fragment _, _, _ =>
    Layout.map_action_steps _ _ _

theorem Node.map_action_layouts : ∀ (nodes : List Node) (around : List Surrounding)
    (before : List Action),
    (Node.layouts nodes around before).map Position.action = Node.scripts nodes
  | [], _, _ => rfl
  | node :: rest, around, before => by
    simp [Node.scripts, Node.map_action_layout node, Node.map_action_layouts rest]

theorem Body.map_action_layout : ∀ (body : Body) (around : List Surrounding)
    (before : List Action), (body.layout around before).map Position.action = body.script
  | .missing, _, _ => rfl
  | .block statements _, around, before => Node.map_action_layouts statements around before

end

/-! ## From position to position -/

namespace Action

/-- What a step enters. -/
def enters? : Action → Option Enclosure
  | enterRoutine routine => some (.routine routine.name)
  | openBlock line => some (.block line)
  | enterLoop n => some (.loop n)
  | target _ _ => some .assignment
  | _ => none

/-- The step leaves the enclosure. -/
def leaves : Action → Enclosure → Bool
  | leaveRoutine, .routine _ | closeBlock, .block _ | store _ _, .assignment => true
  | leaveLoop n, .loop entered => n == entered
  | _, _ => false

/-- The step leaves an enclosure. -/
def isLeaving : Action → Bool
  | leaveRoutine | closeBlock | store _ _ | leaveLoop _ => true
  | _ => false

/-- The step neither enters nor leaves anything. -/
def isInner (action : Action) : Bool :=
  action.enters?.isNone && !action.isLeaving

theorem isInner_of_isTyping : HoldsOfTyping fun action => action.isInner = true := by
  intro action h
  cases action <;> first | rfl | cases h

end Action

namespace Surrounding

/-- The innermost enclosure is no assignment. -/
def areFree : List Surrounding → Bool
  | ⟨.assignment, _⟩ :: _ => false
  | _ => true

end Surrounding

/-- What a step leads to: what stands around the next one. In an assignment stand the steps of
expressions only. -/
inductive Leads (around : List Surrounding) (before : List Action) (action : Action) :
    List Surrounding → Prop where
  | enters {enclosure : Enclosure} (h : action.enters? = some enclosure)
      (hfree : Surrounding.areFree around = true) :
      Leads around before action (⟨enclosure, before ++ [action]⟩ :: around)
  | leaves {inner : Surrounding} {outer : List Surrounding} (haround : around = inner :: outer)
      (h : action.leaves inner.enclosure = true) (hfree : Surrounding.areFree outer = true) :
      Leads around before action outer
  | stays (h : action.isInner = true)
      (hfree : Surrounding.areFree around = true ∨ action.isTyping = true) :
      Leads around before action around

/-- The positions follow one another, from what stands around the first to what stands around the
place behind the last. -/
inductive Route : List Surrounding → List Action → List Position → List Surrounding → Prop where
  | nil {around : List Surrounding} {before : List Action} : Route around before [] around
  | cons {around next last : List Surrounding} {before : List Action} {action : Action}
      {rest : List Position} (h : Leads around before action next)
      (hrest : Route next (before ++ [action]) rest last) :
      Route around before (⟨around, before, action⟩ :: rest) last

namespace Route
variable {around next last : List Surrounding} {before : List Action}
  {positions more : List Position}

theorem append (h : Route around before positions next)
    (h' : Route next (before ++ positions.map Position.action) more last) :
    Route around before (positions ++ more) last := by
  induction h with
  | nil => simpa using h'
  | cons hleads _ ih => exact .cons hleads (ih (by simpa using h'))

/-- A position of a path stands in what the steps of the path lead to. -/
theorem exists_of_mem (h : Route around before positions last) {position : Position}
    (hmem : position ∈ positions) :
    (∃ next, Leads position.around position.before position.action next) ∧
      ∃ front rest, positions = front ++ position :: rest ∧
        position.before = before ++ front.map Position.action ∧
          Route around before front position.around := by
  induction h with
  | nil => cases hmem
  | @cons around next last before action rest hleads hrest ih =>
    rcases List.mem_cons.mp hmem with rfl | hmem
    · exact ⟨⟨next, hleads⟩, [], rest, rfl, by simp, .nil⟩
    · obtain ⟨hnext, front, behind, hpositions, hbefore, hroute⟩ := ih hmem
      refine ⟨hnext, ⟨around, before, action⟩ :: front, behind, ?_, ?_, .cons hleads hroute⟩
      · rw [hpositions, List.cons_append]
      · rw [hbefore, List.append_assoc]
        rfl

/-- **What every step of a path keeps holds at its end**: something about the positions that have
been passed and what stands around the place behind them. -/
theorem concat_induction {I : List Position → List Surrounding → Prop}
    (h : Route around before positions last) (hnil : I [] around)
    (hstep : ∀ front position next, Route around before front position.around →
      position.before = before ++ front.map Position.action →
      Leads position.around position.before position.action next → I front position.around →
      I (front ++ [position]) next) : I positions last := by
  induction h generalizing I with
  | nil => exact hnil
  | @cons around next last before action rest hleads hrest ih =>
    -- The induction is on the first step of the path, while the invariant grows at its end: the
    -- rest of the path is led by the invariant of paths that begin with this step.
    have hfirst : I [⟨around, before, action⟩] next :=
      hstep [] ⟨around, before, action⟩ next .nil (List.append_nil _).symm hleads hnil
    refine ih (I := fun front => I (⟨around, before, action⟩ :: front)) hfirst ?_
    intro front position next' hroute hbefore hleads' hI
    refine hstep (⟨around, before, action⟩ :: front) position next' (.cons hleads hroute) ?_
      hleads' hI
    rw [hbefore, List.append_assoc]
    rfl

end Route

/-! ## Layouts lead back to where they begin -/

/-- The layout leads from wherever it begins, outside of assignments, back to there. -/
def Layout.IsClosed (layout : Layout) : Prop :=
  ∀ around before, Surrounding.areFree around = true →
    Route around before (layout around before) around

namespace Layout
variable {first second inner : Layout} {actions : List Action}

/-- The steps of expressions may stand in an assignment, too. -/
theorem route_typing (h : AllSteps (fun action => action.isTyping = true) actions)
    (around : List Surrounding) (before : List Action) :
    Route around before (steps actions around before) around := by
  induction actions generalizing before with
  | nil => exact .nil
  | cons action rest ih =>
    obtain ⟨haction, hrest⟩ := List.forall_mem_cons.mp h
    exact .cons (.stays (Action.isInner_of_isTyping _ haction) (.inr haction)) (ih hrest _)

theorem isClosed_steps (h : AllSteps (fun action => action.isInner = true) actions) :
    (steps actions).IsClosed := by
  intro around before hfree
  induction actions generalizing before with
  | nil => exact .nil
  | cons action rest ih =>
    obtain ⟨haction, hrest⟩ := List.forall_mem_cons.mp h
    exact .cons (.stays haction (.inl hfree)) (ih hrest _)

theorem IsClosed.andThen (h : first.IsClosed) (h' : second.IsClosed) :
    (first.andThen second).IsClosed :=
  fun around before hfree => (h around before hfree).append (h' around _ hfree)

/-- What is entered is left again. -/
theorem route_inside {enclosure : Enclosure} {enter leave : Action} {around : List Surrounding}
    {before : List Action} (henter : enter.enters? = some enclosure)
    (hleave : leave.leaves enclosure = true) (hfree : Surrounding.areFree around = true)
    (hinner : Route (⟨enclosure, before ++ [enter]⟩ :: around) (before ++ [enter])
      (inner (⟨enclosure, before ++ [enter]⟩ :: around) (before ++ [enter]))
      (⟨enclosure, before ++ [enter]⟩ :: around)) :
    Route around before (inside enclosure enter inner leave around before) around := by
  refine .cons (.enters henter hfree) (hinner.append ?_)
  rw [← List.append_cons]
  exact .cons (.leaves rfl hleave hfree) .nil

theorem IsClosed.inside {enclosure : Enclosure} {enter leave : Action} (h : inner.IsClosed)
    (henter : enter.enters? = some enclosure) (hleave : leave.leaves enclosure = true)
    (hopen : ∀ front around, Surrounding.areFree (⟨enclosure, front⟩ :: around) = true) :
    (inside enclosure enter inner leave).IsClosed :=
  fun around _ hfree => route_inside henter hleave hfree (h _ _ (hopen _ around))

end Layout

theorem Layout.isClosed_assignment (target : String) (value index : Expr) (line : Int) :
    (Node.assignment target value index line).layout.IsClosed := by
  have htyping : HoldsOfTyping fun action => action.isTyping = true := fun _ h => h
  exact fun around before hfree => Layout.route_inside rfl rfl hfree
    (Layout.route_typing ((htyping.script index).append (htyping.script value)) _ _)

theorem DeclaredRoutine.isClosed_layout (routine : DeclaredRoutine) (parameters : List Parameter)
    {inner : Layout} (h : inner.IsClosed) : (routine.layout parameters inner).IsClosed := by
  have hhead := routine.allSteps_head (fun action => action.isInner = true) (fun _ => rfl) rfl
    parameters
  exact ((Layout.isClosed_steps hhead).andThen h).inside rfl rfl fun _ _ => rfl

mutual

/-- **A part of a program leads back to where it begins.** -/
theorem Node.isClosed_layout : ∀ node : Node, node.layout.IsClosed
  | .program _ declarations body _ =>
    (Node.isClosed_layouts declarations).andThen (Body.isClosed_layout body)
  | .varSection declarations _ =>
    Layout.isClosed_steps (VarDeclaration.allSteps_scripts (fun _ _ => rfl) declarations)
  | .constSection declarations _ =>
    Layout.isClosed_steps (Action.isInner_of_isTyping.constSection (fun _ _ => rfl) declarations)
  | .function _ parameters _ declarations body _ | .procedure _ parameters declarations body _ =>
    DeclaredRoutine.isClosed_layout _ parameters
      ((Node.isClosed_layouts declarations).andThen (Body.isClosed_layout body))
  | .block statements _ => (Node.isClosed_layouts statements).inside rfl rfl fun _ _ => rfl
  | .assignment target value index line => Layout.isClosed_assignment target value index line
  | .ifThen condition thenBranch elseBranch _ =>
    ((Layout.isClosed_steps (Action.isInner_of_isTyping.used condition rfl)).andThen
      (Node.isClosed_layout thenBranch)).andThen (Node.isClosed_layout elseBranch)
  | .whileDo condition body _ =>
    (Layout.isClosed_steps (Action.isInner_of_isTyping.used condition rfl)).andThen
      (Node.isClosed_layout body)
  | .forDo counter _ _ _ body _ =>
    (Layout.isClosed_steps (Action.isInner_of_isTyping.bounds rfl fun _ => rfl)).andThen
      ((Node.isClosed_layout body).inside rfl (beq_self_eq_true counter) fun _ _ => rfl)
  | .repeatUntil statements condition _ =>
    (Node.isClosed_layouts statements).andThen
      (Layout.isClosed_steps (Action.isInner_of_isTyping.used condition rfl))
  | .write _ arguments _ =>
    Layout.isClosed_steps (Action.isInner_of_isTyping.writeArguments rfl arguments)
  | .read _ _ _ => Layout.isClosed_steps (Action.isInner_of_isTyping.targets rfl fun _ _ => rfl)
  | .call _ _ _ => Layout.isClosed_steps (Action.isInner_of_isTyping.call rfl rfl)
  | .expression e => Layout.isClosed_steps (Action.isInner_of_isTyping.used e rfl)
  | .fragment _ => Layout.isClosed_steps (.single rfl)

theorem Node.isClosed_layouts : ∀ nodes : List Node, (Node.layouts nodes).IsClosed
  | [] => fun _ _ _ => .nil
  | node :: rest => (Node.isClosed_layout node).andThen (Node.isClosed_layouts rest)

theorem Body.isClosed_layout : ∀ body : Body, body.layout.IsClosed
  | .missing => fun _ _ _ => .nil
  | .block statements _ => Node.isClosed_layouts statements

end

namespace Program

/-- **The positions of a program follow one another**, from outside of everything to there. -/
theorem route_positions (p : Program) : Route [] [] p.positions [] :=
  p.toNode.isClosed_layout [] [] rfl

theorem map_action_positions (p : Program) : p.positions.map Position.action = p.toNode.script :=
  p.toNode.map_action_layout [] []

end Program
end PascalCheck
