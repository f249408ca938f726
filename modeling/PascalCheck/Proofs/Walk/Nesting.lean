import PascalCheck.Proofs.Grammar.Tiers
import PascalCheck.Proofs.Walk.Lexicon

/-! # How the steps of a script are nested

In the script of a program whose declarations stand in front of its statements, no name is declared
while a block is open, and no routine in another one: each step is admitted at its place
(`admitsAll_script`).  A statement leads back to the place where it began. -/
namespace PascalCheck

namespace Action

/-- The step neither declares a name nor opens or closes anything, and no assignment. -/
def isPlain : Action → Bool
  | target _ _ | store _ _ | openBlock _ | closeBlock | enterRoutine _ | leaveRoutine
  | parameter _ _ | result _ | «variable» _ _ | constant _ _ => false
  | _ => true

/-- The step may declare a name. -/
def isDeclaration : Action → Bool
  | parameter _ _ | result _ | «variable» _ _ | constant _ _ => true
  | _ => false

theorem isPlain_of_isTyping {action : Action} (h : action.isTyping = true) :
    action.isPlain = true := by
  cases action <;> first | rfl | cases h

end Action

namespace Lexicon
variable {lexicon : Lexicon} {actions rest : List Action} {action : Action}

/-- Names are declared where no block is open, and routines where no other routine is. -/
def admits (lexicon : Lexicon) : Action → Bool
  | .parameter _ _ | .result _ | .variable _ _ | .constant _ _ => lexicon.blocks == 0
  | .enterRoutine _ => lexicon.blocks == 0 && lexicon.routine.isNone
  | .leaveRoutine => lexicon.blocks == 0 && lexicon.routine.isSome
  | .closeBlock => lexicon.blocks != 0
  | _ => true

/-- Each step is admitted where it stands. -/
def admitsAll (lexicon : Lexicon) : List Action → Bool
  | [] => true
  | action :: rest => lexicon.admits action && (lexicon.next action).admitsAll rest

@[simp] theorem admitsAll_append :
    lexicon.admitsAll (actions ++ rest) =
      (lexicon.admitsAll actions && (lexicon.after actions).admitsAll rest) := by
  induction actions generalizing lexicon with
  | nil => rfl
  | cons action actions ih => simp [admitsAll, ih, Bool.and_assoc]

end Lexicon

/-- What a lexicon says about where its place is. -/
structure ScriptPlace where
  routine : Option Nat
  blocks : Nat
  skipping : Bool

namespace ScriptPlace

/-- No assignment is being passed over. -/
def IsActive (place : ScriptPlace) : Prop :=
  place.skipping = false

/-- Names can be declared. -/
def TakesNames (place : ScriptPlace) : Prop :=
  place.skipping = false ∧ place.blocks = 0

/-- Routines can be declared. -/
def TakesRoutines (place : ScriptPlace) : Prop :=
  place = ⟨none, 0, false⟩

theorem TakesNames.isActive {place : ScriptPlace} (h : place.TakesNames) : place.IsActive :=
  h.1

theorem TakesRoutines.takesNames {place : ScriptPlace} (h : place.TakesRoutines) :
    place.TakesNames := by
  subst h
  exact ⟨rfl, rfl⟩

end ScriptPlace

def Lexicon.place (lexicon : Lexicon) : ScriptPlace :=
  ⟨lexicon.routine, lexicon.blocks, lexicon.skipping⟩

/-- From a place with the property the steps are admitted, and lead back to the place. -/
def Crosses (P : ScriptPlace → Prop) (actions : List Action) : Prop :=
  ∀ lexicon : Lexicon, P lexicon.place →
    lexicon.admitsAll actions = true ∧ (lexicon.after actions).place = lexicon.place

namespace Crosses
variable {P Q : ScriptPlace → Prop} {actions rest : List Action} {action : Action}

theorem mono (h : Crosses Q actions) (hp : ∀ place, P place → Q place) : Crosses P actions :=
  fun lexicon hl => h lexicon (hp _ hl)

theorem nil : Crosses P [] :=
  fun _ _ => ⟨rfl, rfl⟩

theorem append (h : Crosses P actions) (h' : Crosses P rest) : Crosses P (actions ++ rest) := by
  intro lexicon hl
  obtain ⟨hadmitted, hplace⟩ := h lexicon hl
  obtain ⟨hadmitted', hplace'⟩ := h' (lexicon.after actions) (hplace ▸ hl)
  rw [Lexicon.admitsAll_append, Lexicon.after_append, hadmitted, hadmitted']
  exact ⟨rfl, hplace'.trans hplace⟩

theorem flatMap {α : Type} {f : α → List Action} {items : List α}
    (h : ∀ a ∈ items, Crosses P (f a)) : Crosses P (items.flatMap f) := by
  induction items with
  | nil => exact nil
  | cons a items ih =>
    rw [List.flatMap_cons]
    exact (h a List.mem_cons_self).append (ih fun b hb => h b (List.mem_cons_of_mem _ hb))

theorem of_forall_mem (h : ∀ action ∈ actions, Crosses P [action]) : Crosses P actions := by
  have hflat := flatMap h
  rwa [List.flatMap_singleton'] at hflat

/-- A plain step leaves the place alone, also if it is passed over. -/
theorem of_isPlain (h : action.isPlain = true) : Crosses P [action] := by
  intro lexicon _
  have hstore : action.isStore = false := by cases action <;> first | rfl | cases h
  have hadmits : lexicon.admits action = true := by cases action <;> first | rfl | cases h
  refine ⟨by rw [Lexicon.admitsAll, hadmits]; rfl, ?_⟩
  show (lexicon.next action).place = lexicon.place
  unfold Lexicon.next
  by_cases hs : lexicon.skipping = true
  · rw [if_pos hs, hstore]
    simp [Lexicon.place, hs]
  · rw [if_neg hs]
    cases action <;> first | rfl | cases h

theorem of_all_isPlain (h : ∀ action ∈ actions, action.isPlain = true) : Crosses P actions :=
  of_forall_mem fun action ha => of_isPlain (h action ha)

/-- A declaration does not change the place. -/
theorem of_isDeclaration (h : action.isDeclaration = true) :
    Crosses ScriptPlace.TakesNames [action] := by
  rintro lexicon ⟨hskipping, hblocks⟩
  have hblocks' : lexicon.blocks = 0 := hblocks
  have hadmits : lexicon.admits action = true := by
    cases action <;> first | cases h; done | simp [Lexicon.admits, hblocks']
  refine ⟨by rw [Lexicon.admitsAll, hadmits]; rfl, ?_⟩
  show (lexicon.next action).place = lexicon.place
  have hlearn : lexicon.learn action =
      (action.declared? lexicon.routine).elim lexicon lexicon.declare := by
    cases action <;> first | rfl | cases h
  obtain ⟨names, hnames⟩ := lexicon.declared_eq (action.declared? lexicon.routine)
  rw [Lexicon.next_of_active hskipping, hlearn, hnames]
  rfl

end Crosses

/-! ## Expressions and statements -/

theorem Expr.crosses_script {P : ScriptPlace → Prop} (e : Expr) : Crosses P e.script :=
  .of_all_isPlain fun action ha => Action.isPlain_of_isTyping (e.isTyping_of_mem_script action ha)

theorem Expr.crosses_scripts {P : ScriptPlace → Prop} (es : List Expr) :
    Crosses P (Expr.scripts es) :=
  .of_all_isPlain fun action ha =>
    Action.isPlain_of_isTyping (Expr.isTyping_of_mem_scripts es action ha)

theorem Lexicon.place_next_store (lexicon : Lexicon) (name : String) (line : Int) :
    (lexicon.next (.store name line)).place = ⟨lexicon.routine, lexicon.blocks, false⟩ := by
  unfold next
  cases hs : lexicon.skipping <;> simp [place, hs, Action.isStore, learn, Action.declared?]

/-- An assignment ends where it began, whether it is passed over or not. -/
theorem crosses_assignment (target : String) (value index : Expr) (line : Int) :
    Crosses ScriptPlace.IsActive (Node.assignment target value index line).script := by
  intro lexicon hl
  have hskipping : lexicon.skipping = false := hl
  -- The target may be refused, so that the expressions are crossed at any place.
  have hexpressions : Crosses (fun _ => True) (index.script ++ value.script) :=
    index.crosses_script.append value.crosses_script
  have htarget : (lexicon.next (.target target line)).place =
      ⟨lexicon.routine, lexicon.blocks, lexicon.refuses target⟩ := by
    rw [Lexicon.next_of_active hskipping]
    rfl
  obtain ⟨hadmitted, hplace⟩ := hexpressions (lexicon.next (.target target line)) trivial
  have hscript : (Node.assignment target value index line).script =
      .target target line :: (index.script ++ value.script) ++ [.store target line] := rfl
  rw [htarget] at hplace
  obtain ⟨hroutine, hblocks, -⟩ := ScriptPlace.mk.inj hplace
  rw [hscript, List.cons_append]
  refine ⟨?_, ?_⟩
  · simp only [Lexicon.admitsAll, Lexicon.admitsAll_append, hadmitted]
    rfl
  · rw [Lexicon.after_cons, Lexicon.after_append, Lexicon.after_cons, Lexicon.after_nil,
      Lexicon.place_next_store, hroutine, hblocks, Lexicon.place, hskipping]

theorem crosses_block {statements : List Node} (line : Int)
    (h : Crosses ScriptPlace.IsActive (Node.scripts statements)) :
    Crosses ScriptPlace.IsActive (Node.block statements line).script := by
  intro lexicon hl
  have hskipping : lexicon.skipping = false := hl
  have hopen : lexicon.next (.openBlock line) = { lexicon with blocks := lexicon.blocks + 1 } :=
    Lexicon.next_of_active hskipping _
  obtain ⟨hadmitted, hplace⟩ := h { lexicon with blocks := lexicon.blocks + 1 } hl
  obtain ⟨hroutine, hblocks, hskip⟩ := ScriptPlace.mk.inj hplace
  have hclosed : ∀ inner : Lexicon, inner.blocks = lexicon.blocks + 1 → inner.skipping = false →
      inner.admits .closeBlock = true ∧
        (inner.next .closeBlock).place = ⟨inner.routine, lexicon.blocks, false⟩ := by
    intro inner hb hs
    rw [Lexicon.next_of_active hs]
    simp [Lexicon.admits, Lexicon.learn, Lexicon.place, hb, hs]
  obtain ⟨hadmits, hback⟩ := hclosed _ hblocks (hskip.trans hskipping)
  rw [Node.script, List.cons_append]
  refine ⟨?_, ?_⟩
  · simp only [Lexicon.admitsAll, Lexicon.admitsAll_append, hopen, hadmitted, hadmits]
    rfl
  · rw [Lexicon.after_cons, Lexicon.after_append, hopen, Lexicon.after_cons, Lexicon.after_nil,
      hback, hroutine, Lexicon.place, hskipping]

mutual

/-- **A statement leads back to where it began.** -/
theorem Node.crosses_script : ∀ n : Node, n.isStatement = true →
    Crosses ScriptPlace.IsActive n.script
  | .block statements line, h => crosses_block line (Node.crosses_scripts statements h)
  | .assignment target value index line, _ => crosses_assignment target value index line
  | .ifThen condition thenBranch elseBranch line, h => by
    obtain ⟨hthen, helse⟩ := Bool.and_eq_true_iff.mp h
    exact ((condition.crosses_script.append (.of_isPlain rfl)).append
      (Node.crosses_script thenBranch hthen)).append (Node.crosses_script elseBranch helse)
  | .whileDo condition body line, h =>
    (condition.crosses_script.append (.of_isPlain rfl)).append (Node.crosses_script body h)
  | .forDo counter start finish _ body line, h => by
    have hstart : Crosses ScriptPlace.IsActive (start.script ++ [.bound .start line]) :=
      start.crosses_script.append (.of_isPlain rfl)
    have hfinish : Crosses ScriptPlace.IsActive (finish.script ++ [.bound .finish line]) :=
      finish.crosses_script.append (.of_isPlain rfl)
    have hcounter : Crosses ScriptPlace.IsActive [.counter counter line] := .of_isPlain rfl
    have hhead : Crosses ScriptPlace.IsActive
        (.counter counter line :: (start.script ++ [.bound .start line])) :=
      hcounter.append hstart
    exact (((hhead.append hfinish).append (.of_isPlain rfl)).append
      (Node.crosses_script body h)).append (.of_isPlain rfl)
  | .repeatUntil statements condition line, h =>
    ((Node.crosses_scripts statements h).append condition.crosses_script).append (.of_isPlain rfl)
  | .write _ arguments _, _ => by
    refine .flatMap fun argument _ => ?_
    exact ((argument.value.crosses_script.append argument.width.crosses_script).append
      argument.decimals.crosses_script).append (.of_isPlain rfl)
  | .read routine targets _, _ => by
    refine .flatMap fun target _ => ?_
    cases target with
    | name n line => exact .of_isPlain rfl
    | element n index line =>
      refine index.crosses_script.append (.of_all_isPlain ?_)
      simp [Action.isPlain]
  | .call name arguments line, _ => by
    refine (Expr.crosses_scripts arguments).append (.of_all_isPlain ?_)
    simp [Action.isPlain]
  | .expression e, _ => e.crosses_script.append (.of_isPlain rfl)
  | .fragment _, _ => .of_isPlain rfl

theorem Node.crosses_scripts : ∀ ns : List Node, Node.allStatements ns = true →
    Crosses ScriptPlace.IsActive (Node.scripts ns)
  | [], _ => .nil
  | n :: rest, h => by
    obtain ⟨hn, hrest⟩ := Bool.and_eq_true_iff.mp h
    exact (Node.crosses_script n hn).append (Node.crosses_scripts rest hrest)

end

theorem Body.crosses_script {body : Body} (h : body.isTiered = true) :
    Crosses ScriptPlace.IsActive body.script := by
  cases body with
  | missing => exact .nil
  | block statements line => exact Node.crosses_scripts statements h

/-! ## Declarations -/

theorem Node.crosses_nameSection {n : Node} (h : n.isNameSection = true) :
    Crosses ScriptPlace.TakesNames n.script := by
  cases n with
  | varSection declarations line =>
    refine .flatMap fun d _ => .of_forall_mem fun action ha => ?_
    obtain ⟨name, -, rfl⟩ := List.mem_map.mp ha
    exact .of_isDeclaration rfl
  | constSection declarations line =>
    refine .flatMap fun d _ => Crosses.append ?_ (.of_isDeclaration rfl)
    split
    · exact .of_isPlain rfl
    · exact Expr.crosses_script _
  | _ => cases h

theorem Node.crosses_nameSections {ns : List Node} (h : ns.all Node.isNameSection = true) :
    Crosses ScriptPlace.TakesNames (Node.scripts ns) := by
  induction ns with
  | nil => exact .nil
  | cons n rest ih =>
    obtain ⟨hn, hrest⟩ := Bool.and_eq_true_iff.mp h
    exact (Node.crosses_nameSection hn).append (ih hrest)

/-- A routine is closed where it was opened. -/
theorem crosses_routine (routine : DeclaredRoutine) (parameters : List Parameter)
    {declarations : List Node} {body : Body}
    (hd : declarations.all Node.isNameSection = true) (hb : body.isTiered = true) :
    Crosses ScriptPlace.TakesRoutines (routine.script parameters ++ Node.scripts declarations ++
      body.script ++ [.leaveRoutine]) := by
  have hinner : Crosses ScriptPlace.TakesNames (parameters.map (.parameter routine.line) ++
      [.result routine] ++ Node.scripts declarations ++ body.script) := by
    have hparameters :
        Crosses ScriptPlace.TakesNames (parameters.map (.parameter routine.line)) := by
      refine .of_forall_mem fun action ha => ?_
      obtain ⟨p, -, rfl⟩ := List.mem_map.mp ha
      exact .of_isDeclaration rfl
    exact ((hparameters.append (.of_isDeclaration rfl)).append
      (Node.crosses_nameSections hd)).append
        ((Body.crosses_script hb).mono fun _ => ScriptPlace.TakesNames.isActive)
  intro lexicon hl
  obtain ⟨hroutine, hblocks, hskipping⟩ := ScriptPlace.mk.inj hl
  let inside : Lexicon :=
    { lexicon with routine := some lexicon.routines, routines := lexicon.routines + 1 }
  have henter : lexicon.admits (.enterRoutine routine) = true ∧
      lexicon.next (.enterRoutine routine) = inside := by
    rw [Lexicon.next_of_active hskipping]
    exact ⟨by simp [Lexicon.admits, hroutine, hblocks], rfl⟩
  obtain ⟨hadmitted, hplace⟩ := hinner inside ⟨hskipping, hblocks⟩
  obtain ⟨hroutine', hblocks', hskipping'⟩ := ScriptPlace.mk.inj hplace
  have hleave : ∀ last : Lexicon, last.routine = some lexicon.routines → last.blocks = 0 →
      last.skipping = false → last.admits .leaveRoutine = true ∧
        (last.next .leaveRoutine).place = ⟨none, 0, false⟩ := by
    intro last hr hb hs
    rw [Lexicon.next_of_active hs]
    simp [Lexicon.admits, Lexicon.learn, Lexicon.place, hr, hb, hs]
  obtain ⟨hadmits, hback⟩ :=
    hleave _ hroutine' (hblocks'.trans hblocks) (hskipping'.trans hskipping)
  have hscript : routine.script parameters ++ Node.scripts declarations ++ body.script ++
      [.leaveRoutine] = .enterRoutine routine :: (parameters.map (.parameter routine.line) ++
        [.result routine] ++ Node.scripts declarations ++ body.script) ++ [.leaveRoutine] := rfl
  rw [hscript, List.cons_append]
  refine ⟨?_, ?_⟩
  · simp only [Lexicon.admitsAll, Lexicon.admitsAll_append, henter.1, henter.2, hadmitted, hadmits]
    rfl
  · rw [Lexicon.after_cons, Lexicon.after_append, henter.2, Lexicon.after_cons, Lexicon.after_nil,
      hback, hl]

theorem Node.crosses_declaration {n : Node} (h : n.isTiered = true) :
    Crosses ScriptPlace.TakesRoutines n.script := by
  cases n with
  | function name parameters result declarations body line
  | procedure name parameters declarations body line =>
    obtain ⟨hd, hb⟩ := Bool.and_eq_true_iff.mp h
    exact crosses_routine _ parameters hd hb
  | varSection | constSection =>
    exact (Node.crosses_nameSection rfl).mono fun _ => ScriptPlace.TakesRoutines.takesNames
  | _ => cases h

/-- **In the script of a program whose declarations stand in front of its statements, each step is
admitted at its place.** -/
theorem Program.admitsAll_script {p : Program} (h : p.isTiered = true) :
    ({} : Lexicon).admitsAll p.toNode.script = true := by
  obtain ⟨hd, hb⟩ := Bool.and_eq_true_iff.mp h
  have hdeclarations : Crosses ScriptPlace.TakesRoutines (Node.scripts p.declarations) := by
    generalize p.declarations = declarations at hd
    induction declarations with
    | nil => exact .nil
    | cons n rest ih =>
      obtain ⟨hn, hrest⟩ := Bool.and_eq_true_iff.mp hd
      exact (Node.crosses_declaration hn).append (ih hrest)
  have hbody : Crosses ScriptPlace.TakesRoutines p.body.script :=
    (Body.crosses_script hb).mono fun _ hplace => hplace.takesNames.isActive
  exact ((hdeclarations.append hbody) {} rfl).1

end PascalCheck
