import PascalCheck.Proofs.Grammar.Tiers
import PascalCheck.Proofs.Walk.Positions

/-! # Where routines are entered

No statement enters a routine, so that nothing stands around a routine in a program whose
declarations stand in front of its statements (`Program.around_of_isEntry`). -/
namespace PascalCheck

/-- The step enters a routine. -/
def Action.isEntry : Action → Bool
  | enterRoutine _ => true
  | _ => false

theorem Action.isEntry_of_isTyping : HoldsOfTyping fun action => action.isEntry = false := by
  intro action h
  cases action <;> first | rfl | cases h

/-- None of the steps enters a routine. -/
abbrev AreBelow (actions : List Action) : Prop :=
  AllSteps (fun action => action.isEntry = false) actions

mutual

/-- **No statement enters a routine.** -/
theorem Node.areBelow_script : ∀ n : Node, n.isStatement = true → AreBelow n.script
  | .block statements line, h =>
    .cons rfl ((Node.areBelow_scripts statements h).append (.single rfl))
  | .assignment _ value index _, _ =>
    .cons rfl (((Action.isEntry_of_isTyping.script index).append
      (Action.isEntry_of_isTyping.script value)).append (.single rfl))
  | .ifThen condition thenBranch elseBranch _, h => by
    obtain ⟨hthen, helse⟩ := Bool.and_eq_true_iff.mp h
    exact ((Action.isEntry_of_isTyping.used condition rfl).append
      (Node.areBelow_script thenBranch hthen)).append (Node.areBelow_script elseBranch helse)
  | .whileDo condition body _, h =>
    (Action.isEntry_of_isTyping.used condition rfl).append (Node.areBelow_script body h)
  | .forDo _ _ _ _ body _, h =>
    (((Action.isEntry_of_isTyping.bounds rfl fun _ => rfl).append (.single rfl)).append
      (Node.areBelow_script body h)).append (.single rfl)
  | .repeatUntil statements condition _, h =>
    ((Node.areBelow_scripts statements h).append
      (Action.isEntry_of_isTyping.script condition)).append (.single rfl)
  | .write _ arguments _, _ => Action.isEntry_of_isTyping.writeArguments rfl arguments
  | .read _ _ _, _ => Action.isEntry_of_isTyping.targets rfl fun _ _ => rfl
  | .call _ _ _, _ => Action.isEntry_of_isTyping.call rfl rfl
  | .expression e, _ => Action.isEntry_of_isTyping.used e rfl
  | .fragment _, _ => .single rfl

theorem Node.areBelow_scripts : ∀ ns : List Node, Node.allStatements ns = true →
    AreBelow (Node.scripts ns)
  | [], _ => .nil
  | n :: rest, h => by
    obtain ⟨hn, hrest⟩ := Bool.and_eq_true_iff.mp h
    exact (Node.areBelow_script n hn).append (Node.areBelow_scripts rest hrest)

end

theorem Body.areBelow_script {body : Body} (h : body.isTiered = true) : AreBelow body.script := by
  cases body with
  | missing => exact .nil
  | block statements line => exact Node.areBelow_scripts statements h

theorem Node.areBelow_nameSection {n : Node} (h : n.isNameSection = true) : AreBelow n.script := by
  cases n with
  | varSection declarations line => exact VarDeclaration.allSteps_scripts (fun _ _ => rfl) _
  | constSection declarations line =>
    exact Action.isEntry_of_isTyping.constSection (fun _ _ => rfl) _
  | _ => cases h

theorem Node.areBelow_nameSections {ns : List Node} (h : ns.all Node.isNameSection = true) :
    AreBelow (Node.scripts ns) := by
  induction ns with
  | nil => exact .nil
  | cons n rest ih =>
    obtain ⟨hn, hrest⟩ := Bool.and_eq_true_iff.mp h
    exact (Node.areBelow_nameSection hn).append (ih hrest)

theorem DeclaredRoutine.around_of_isEntry (routine : DeclaredRoutine)
    (parameters : List Parameter) {inner : Layout} {actions : List Action}
    (hinner : ∀ around before, (inner around before).map Position.action = actions)
    (hactions : AreBelow actions) {around : List Surrounding} {before : List Action}
    {position : Position} (hmem : position ∈ routine.layout parameters inner around before)
    (hentry : position.action.isEntry = true) : position.around = around := by
  have hhead := routine.allSteps_head (fun action => action.isEntry = false) (fun _ => rfl) rfl
    parameters
  have hbelow : AreBelow (parameters.map (.parameter routine.line) ++ [.result routine] ++
      actions ++ [.leaveRoutine]) := (hhead.append hactions).append (.single rfl)
  unfold DeclaredRoutine.layout Layout.inside at hmem
  rw [List.cons_append] at hmem
  rcases List.mem_cons.mp hmem with rfl | hmem
  · rfl
  · have haction := List.mem_map_of_mem (f := Position.action) hmem
    rw [List.map_append, Layout.map_action_andThen, Layout.map_action_steps, hinner] at haction
    rw [hbelow _ haction] at hentry
    cases hentry

theorem Node.around_of_isEntry {n : Node} (h : n.isTiered = true) {around : List Surrounding}
    {before : List Action} {position : Position} (hmem : position ∈ n.layout around before)
    (hentry : position.action.isEntry = true) : position.around = around := by
  cases n with
  | function name parameters result declarations body line
  | procedure name parameters declarations body line =>
    obtain ⟨hd, hb⟩ := Bool.and_eq_true_iff.mp h
    refine DeclaredRoutine.around_of_isEntry _ parameters (fun around before => ?_)
      ((Node.areBelow_nameSections hd).append (Body.areBelow_script hb)) hmem hentry
    rw [Layout.map_action_andThen, Node.map_action_layouts, Body.map_action_layout]
  | varSection declarations line | constSection declarations line =>
    have haction := List.mem_map_of_mem (f := Position.action) hmem
    rw [Node.map_action_layout] at haction
    rw [Node.areBelow_nameSection rfl _ haction] at hentry
    cases hentry
  | _ => cases h

/-- **A program whose declarations stand in front of its statements enters its routines where
nothing stands around.** -/
theorem Program.around_of_isEntry {p : Program} (h : p.isTiered = true) {position : Position}
    (hmem : position ∈ p.positions) (hentry : position.action.isEntry = true) :
    position.around = [] := by
  obtain ⟨hd, hb⟩ := Bool.and_eq_true_iff.mp h
  have hdeclarations : ∀ before, position ∈ Node.layouts p.declarations [] before →
      position.around = [] := by
    generalize p.declarations = declarations at hd
    induction declarations with
    | nil => exact fun _ hmem => nomatch hmem
    | cons n rest ih =>
      intro before hmem
      obtain ⟨hn, hrest⟩ := Bool.and_eq_true_iff.mp hd
      rcases List.mem_append.mp hmem with hmem | hmem
      · exact Node.around_of_isEntry hn hmem hentry
      · exact ih hrest _ hmem
  rcases List.mem_append.mp hmem with hmem | hmem
  · exact hdeclarations [] hmem
  · have haction := List.mem_map_of_mem (f := Position.action) hmem
    rw [Body.map_action_layout] at haction
    rw [Body.areBelow_script hb _ haction] at hentry
    cases hentry

end PascalCheck
