import Mathlib.Data.List.Induction
import PascalCheck.Proofs.Walk.Ending
import PascalCheck.Proofs.Walk.Steps

/-! # The lines of what is found and declared

A step of a walk reports at the line that it carries, and a symbol is declared on the line of the
step that declares it.  So a property that the lines of all steps have is one of the lines of all
findings and all symbols (`standsOn_of_reaches`), also of those that are found behind the walk,
since these are reported where their symbols were declared (`standsOn_of_run`). -/
namespace PascalCheck

/-- The lines at which a step may report something or declare a symbol. -/
def Action.lines : Action → List Int
  | name _ line | element _ line | call _ _ line | binary _ line | unary _ line
  | condition _ line | bound _ line | target _ line | store _ line | counter _ line
  | read _ _ line | invoke _ _ line | constant _ line => [line]
  | enterRoutine routine | result routine => [routine.line]
  | parameter line p => [line, p.line]
  | «variable» n _ => [n.line]
  | _ => []

/-- The lines of the step have the property. -/
def Action.StandsOn (Q : Int → Prop) (action : Action) : Prop :=
  ∀ line ∈ action.lines, Q line

/-- The lines of all of the steps have the property. -/
abbrev StandOn (Q : Int → Prop) (actions : List Action) : Prop :=
  AllSteps (Action.StandsOn Q) actions

/-- All symbols have been declared on lines with the property. -/
def ScopeTable.StandsOn (Q : Int → Prop) (table : ScopeTable) : Prop :=
  ∀ symbol ∈ table.symbols.toList, Q symbol.line

/-- All has been found on lines with the property. -/
def AnalysisState.FoundOn (Q : Int → Prop) (s : AnalysisState) : Prop :=
  ∀ found ∈ s.findings.toList, Q found.line

variable {Q : Int → Prop}

/-- A parameter is declared on its own line, or on that of its routine. -/
theorem Action.StandsOn.parameter {line : Int} {p : Parameter}
    (h : (Action.parameter line p).StandsOn Q) : Q (if p.line = 0 then line else p.line) := by
  split
  · exact h line List.mem_cons_self
  · exact h p.line (List.mem_cons_of_mem _ List.mem_cons_self)

/-! ## Symbols -/

namespace ScopeTable
variable {table : ScopeTable}

/-- A change of a symbol leaves it on its line. -/
theorem StandsOn.update (h : table.StandsOn Q) (name : String) {change : Symbol → Symbol}
    (hchange : ∀ symbol, (change symbol).line = symbol.line) :
    (table.update name change).StandsOn Q := by
  unfold ScopeTable.update
  split
  next number =>
    intro symbol hmem
    obtain ⟨k, hk⟩ := List.mem_iff_getElem?.mp hmem
    simp only [Array.getElem?_toList, Array.getElem?_modify] at hk
    split at hk
    · obtain ⟨before, hbefore, rfl⟩ := Option.map_eq_some_iff.mp hk
      rw [hchange]
      exact h before (Array.mem_toList_iff.mpr (Array.mem_of_getElem? hbefore))
    · exact h symbol (Array.mem_toList_iff.mpr (Array.mem_of_getElem? hk))
  next => exact h

theorem StandsOn.markInitialized (h : table.StandsOn Q) (name : String) :
    (table.markInitialized name).StandsOn Q :=
  h.update name fun _ => rfl

theorem StandsOn.countUse (h : table.StandsOn Q) (name : String) :
    (table.countUse name).StandsOn Q :=
  h.update name fun _ => rfl

/-- A declared symbol stands on the line of its declaration, whatever is done to it next. -/
theorem StandsOn.declareThen (h : table.StandsOn Q) (name : String) (ty : Ty) {line : Int}
    (hline : Q line) (category : Category) {change : ScopeTable → ScopeTable}
    (hchange : ∀ t : ScopeTable, t.StandsOn Q → (change t).StandsOn Q) :
    (table.declareThen name ty line category change).StandsOn Q := by
  unfold ScopeTable.declareThen
  cases hd : table.declare? name ty line category with
  | none => exact h
  | some declared =>
    refine hchange declared ?_
    unfold declare? at hd
    dsimp only at hd
    split at hd
    · cases hd
    · cases hd
      intro symbol hmem
      rw [Array.toList_push] at hmem
      rcases List.mem_append.mp hmem with hold | hnew
      · exact h symbol hold
      · obtain rfl := List.mem_singleton.mp hnew
        exact hline

/-- **A step declares symbols on its own lines only.** -/
theorem StandsOn.onTable (h : table.StandsOn Q) {action : Action} (ha : action.StandsOn Q)
    (types : List Ty) : (action.onTable types table).StandsOn Q := by
  cases action with
  | name n line | element n line => exact h.countUse n
  | store n line => exact h.markInitialized n
  | counter n line =>
    show (if n = "" then table else table.startLoop n).StandsOn Q
    split
    · exact h
    · unfold startLoop
      split
      · exact h
      · split
        · exact h
        · split
          · exact (h.markInitialized n).update n fun _ => rfl
          · exact h.markInitialized n
  | read routine n line => exact (h.markInitialized n).countUse n
  | parameter line p =>
    exact h.declareThen _ _ ha.parameter _ fun t ht => (ht.markInitialized _).countUse _
  | result routine =>
    show (table.declareResult routine).StandsOn Q
    unfold declareResult
    split
    · exact h.declareThen _ _ (ha routine.line List.mem_cons_self) _
        fun t ht => ht.markInitialized _
    · exact h
  | «variable» n ty => exact h.declareThen _ _ (ha n.line List.mem_cons_self) _ fun t ht => ht
  | constant n line =>
    exact h.declareThen _ _ (ha line List.mem_cons_self) _ fun t ht => ht.markInitialized _
  | _ => exact h

end ScopeTable

/-! ## Findings -/

namespace Analysis
variable {α β : Type} {catalogue : Catalogue}

/-- Every run of the step finds things on lines with the property only. -/
def ReportsOn (Q : Int → Prop) (m : Analysis α) : Prop :=
  ∀ s a s', StateT.run m s = .ok (a, s') → s.FoundOn Q → s'.FoundOn Q

namespace ReportsOn
variable {m n : Analysis α} {f : α → Analysis β}

theorem pure (a : α) : ReportsOn Q (pure a) := by
  intro s b s' h hs
  cases h
  exact hs

theorem throw (fault : Fault) : ReportsOn Q (throw fault : Analysis α) := by
  intro s a s' h
  cases h

/-- A report is on the line that it is given. -/
theorem report {line : Int} (h : Q line) (finding : Finding) :
    ReportsOn Q (report line finding) := by
  intro s a s' hm hs
  cases hm
  intro found hmem
  rw [Array.toList_push] at hmem
  rcases List.mem_append.mp hmem with hold | hnew
  · exact hs found hold
  · obtain rfl := List.mem_singleton.mp hnew
    exact h

/-- A step that finds nothing. -/
theorem of_findings (h : ∀ s a s', StateT.run m s = .ok (a, s') → s'.findings = s.findings) :
    ReportsOn Q m := by
  intro s a s' hm hs found hmem
  rw [h s a s' hm] at hmem
  exact hs found hmem

theorem modify {change : AnalysisState → AnalysisState}
    (h : ∀ s, (change s).findings = s.findings) : ReportsOn Q (modify change) := by
  refine of_findings fun s a s' hm => ?_
  cases hm
  exact h s

/-- Two steps that report on such lines do so in sequence. -/
theorem bind (h : ReportsOn Q m) (hf : ∀ a, ReportsOn Q (f a)) : ReportsOn Q (m >>= f) := by
  intro s b s'' hb hs
  obtain ⟨a, s', hm, hfa⟩ := run_bind_eq_ok.mp hb
  exact hf a s' b s'' hfa (h s a s' hm hs)

theorem ite {p : Prop} [Decidable p] (hm : ReportsOn Q m) (hn : ReportsOn Q n) :
    ReportsOn Q (if p then m else n) := by
  split
  · exact hm
  · exact hn

theorem get : ReportsOn Q (get : Analysis AnalysisState) := by
  refine of_findings fun s a s' hm => ?_
  cases hm
  rfl

theorem symbol? (name : String) : ReportsOn Q (symbol? name) :=
  get.bind fun _ => .pure _

theorem routine? (name : String) : ReportsOn Q (routine? name) :=
  get.bind fun _ => .pure _

theorem changeTable (change : ScopeTable → ScopeTable) : ReportsOn Q (changeTable change) :=
  .modify fun _ => rfl

end ReportsOn

section Lines
variable {line : Int} (h : Q line)
include h

/-- A rejected expression is reported where it stands. -/
theorem reportsOn_reject (finding : Finding) : ReportsOn Q (reject line finding) :=
  (ReportsOn.report h finding).bind fun _ => .pure _

/-- A call is typed on its own line. -/
theorem reportsOn_callType (name : String) (types : List Ty) :
    ReportsOn Q (callType catalogue name types line) := by
  unfold callType
  dsimp only
  split
  · refine .ite ?_ (reportsOn_reject h _)
    split
    · exact .pure _
    · exact .throw _
  · refine (ReportsOn.routine? name).bind fun found => ?_
    split
    · split
      · split
        · exact .pure _
        · exact (ReportsOn.report h _).bind fun _ => .pure _
      · exact reportsOn_reject h _
    · exact .ite (reportsOn_reject h _) ((ReportsOn.symbol? name).bind fun _ =>
        .ite (reportsOn_reject h _) (reportsOn_reject h _))

theorem reportsOn_nameType (name : String) : ReportsOn Q (nameType catalogue name line) := by
  refine (ReportsOn.symbol? name).bind fun found => ?_
  split
  · have huse : ∀ ty : Ty, ReportsOn Q (do changeTable (·.countUse name); return ty) := fun ty =>
      (ReportsOn.changeTable _).bind fun _ => .pure ty
    exact .ite (huse _) ((ReportsOn.report h _).bind fun _ => huse _)
  · refine ((ReportsOn.routine? name).bind fun _ => .pure _).bind fun _ => ?_
    exact .ite (reportsOn_callType h name []) (reportsOn_reject h _)

theorem reportsOn_elementType (name : String) : ReportsOn Q (elementType name line) := by
  refine (ReportsOn.symbol? name).bind fun found => ?_
  split
  · exact (ReportsOn.changeTable _).bind fun _ => .pure _
  · exact reportsOn_reject h _

theorem reportsOn_binaryType (op : String) (l r : Ty) : ReportsOn Q (binaryType op l r line) := by
  unfold binaryType
  split
  · exact .pure _
  · exact reportsOn_reject h _

theorem reportsOn_unaryType (op : String) (operand : Ty) :
    ReportsOn Q (unaryType op operand line) :=
  .ite (.pure _) (.ite (.ite (.pure _) (reportsOn_reject h _))
    (.ite (.pure _) (reportsOn_reject h _)))

theorem reportsOn_checkNotCounter (name : String) : ReportsOn Q (checkNotCounter name line) :=
  ReportsOn.get.bind fun _ => .ite (.report h _) (.pure _)

/-- The checks of a counter report on the line of its loop. -/
theorem reportsOn_checkCounter (name : String) : ReportsOn Q (checkCounter name line) := by
  refine .ite ((ReportsOn.symbol? name).bind fun found => ?_) (.pure _)
  cases found with
  | none => exact .report h _
  | some symbol =>
    have hcount : ReportsOn Q (do
        changeTable (·.markInitialized name)
        if symbol.category = .variable then changeTable (·.setCategory name .counter)) :=
      (ReportsOn.changeTable _).bind fun _ => .ite (.changeTable _) (.pure _)
    exact .ite (.report h _) (.ite hcount ((ReportsOn.report h _).bind fun _ => hcount))

theorem reportsOn_storeRead (routine name : String) :
    ReportsOn Q (storeRead routine name line) := by
  refine (ReportsOn.symbol? name).bind fun found => ?_
  cases found with
  | none => exact .report h _
  | some symbol =>
    have hstore : ReportsOn Q (do
        checkNotCounter name line
        changeTable (·.markInitialized name)
        changeTable (·.countUse name)) :=
      (reportsOn_checkNotCounter h name).bind fun _ =>
        (ReportsOn.changeTable _).bind fun _ => .changeTable _
    exact .ite ((ReportsOn.report h _).bind fun _ => hstore) hstore

/-- A call is checked on its own line. -/
theorem reportsOn_checkCall (name : String) (given : Nat) :
    ReportsOn Q (checkCall catalogue name given line) := by
  unfold checkCall
  split
  · exact .ite (.pure _) (.report h _)
  · split
    · exact .ite (.pure _) (.report h _)
    · refine (ReportsOn.routine? name).bind fun found => ?_
      split
      · exact .ite (.pure _) (.report h _)
      · exact (ReportsOn.symbol? name).bind fun _ => .ite (.report h _) (.report h _)

omit h in
theorem reportsOn_declareSilently (name : String) (ty : Ty) (category : Category) :
    ReportsOn Q (declareSilently name ty line category) := by
  refine .of_findings fun s a s' hm => ?_
  obtain ⟨_, _, hget, hm⟩ := run_bind_eq_ok.mp hm
  cases hget
  dsimp only at hm
  split at hm <;> cases hm <;> rfl

/-- A declaration that is refused is reported where it stands, not where the name was declared
before. -/
theorem reportsOn_declare (what : Declared) (name : String) (ty : Ty) (category : Category) :
    ReportsOn Q (declare what name ty line category) := by
  refine (reportsOn_declareSilently name ty category).bind fun declared => ?_
  refine .ite (.pure _) (ReportsOn.get.bind fun s => ?_)
  dsimp only
  split
  · exact (ReportsOn.report h _).bind fun _ => .pure _
  · exact .pure _

end Lines

theorem reportsOn_openScope (name : String) : ReportsOn Q (openScope name) :=
  .modify fun _ => rfl

theorem reportsOn_closeScope : ReportsOn Q closeScope :=
  .modify fun _ => rfl

/-- A routine that is declared again is reported at its header. -/
theorem reportsOn_enterRoutine {routine : DeclaredRoutine} (h : Q routine.line) :
    ReportsOn Q (Analysis.enterRoutine routine) := by
  have hadd : ReportsOn Q (addRoutine routine) := .modify fun _ => rfl
  refine (ReportsOn.routine? _).bind fun found => ?_
  split
  · exact (ReportsOn.report h _).bind fun _ => hadd
  · exact hadd

theorem reportsOn_declareResult (routine : DeclaredRoutine) :
    ReportsOn Q (declareResult routine) := by
  unfold declareResult
  split
  · exact (reportsOn_declareSilently _ _ _).bind fun _ => .ite (.changeTable _) (.pure _)
  · exact .pure _

/-- **A step reports at its own lines only.** -/
theorem reportsOn_effect {action : Action} (h : action.StandsOn Q) (types : List Ty) :
    ReportsOn Q (action.effect catalogue types) := by
  have hold : ∀ {α : Type} {m : Analysis α}, ReportsOn Q m → ∀ types : α → List Ty,
      ReportsOn Q (do return ⟨types (← m), false⟩ : Analysis Held) :=
    fun hm _ => hm.bind fun _ => .pure _
  cases action with
  | give ty => exact .pure _
  | literal typeName =>
    refine hold (m := literalType typeName) ?_ fun ty => ty :: types
    unfold literalType
    split
    · exact .pure _
    · exact .throw _
  | name n line =>
    exact hold (reportsOn_nameType (h line List.mem_cons_self) n) fun ty => ty :: types
  | element n line =>
    exact hold (reportsOn_elementType (h line List.mem_cons_self) n) fun ty => ty :: types.tail
  | call n arguments line =>
    exact hold (reportsOn_callType (h line List.mem_cons_self) n _)
      fun ty => ty :: types.drop arguments
  | binary op line =>
    exact hold (reportsOn_binaryType (h line List.mem_cons_self) op _ _)
      fun ty => ty :: types.drop 2
  | unary op line =>
    exact hold (reportsOn_unaryType (h line List.mem_cons_self) op _) fun ty => ty :: types.tail
  | discard count => exact .pure _
  | condition statement line | bound which line =>
    exact .ite (.pure _) ((ReportsOn.report (h line List.mem_cons_self) _).bind fun _ => .pure _)
  | target n line =>
    have hline := h line List.mem_cons_self
    refine (ReportsOn.symbol? n).bind fun found => ?_
    split
    · exact (ReportsOn.report hline _).bind fun _ => .pure _
    · exact (reportsOn_checkNotCounter hline n).bind fun _ =>
        .ite ((ReportsOn.report hline _).bind fun _ => .pure _) (.pure _)
  | store n line =>
    have hline := h line List.mem_cons_self
    have hmark := hold (ReportsOn.changeTable (Q := Q) (·.markInitialized n)) fun _ => types.drop 3
    exact .ite hmark (.ite ((ReportsOn.report hline _).bind fun _ => hmark)
      ((ReportsOn.report hline _).bind fun _ => hmark))
  | counter n line =>
    exact hold (reportsOn_checkCounter (h line List.mem_cons_self) n) fun _ => types
  | enterLoop n =>
    have hprotect : ReportsOn Q (protect (Text.lower n)) := .modify fun _ => rfl
    exact .ite (hprotect.bind fun _ => .pure _) (.pure _)
  | leaveLoop n =>
    have hunprotect : ReportsOn Q (unprotect (Text.lower n)) := .modify fun _ => rfl
    exact hold hunprotect fun _ => types
  | read routine n line =>
    exact hold (reportsOn_storeRead (h line List.mem_cons_self) routine n) fun _ => types
  | invoke n arguments line =>
    exact hold (reportsOn_checkCall (h line List.mem_cons_self) n arguments) fun _ => types
  | openBlock line => exact hold (reportsOn_openScope _) fun _ => types
  | closeBlock | leaveRoutine => exact hold reportsOn_closeScope fun _ => types
  | enterRoutine routine =>
    exact (reportsOn_enterRoutine (h routine.line List.mem_cons_self)).bind fun _ =>
      hold (reportsOn_openScope _) fun _ => types
  | parameter line p =>
    have hdone : ReportsOn Q (do
        changeTable (·.markInitialized p.name)
        changeTable (·.countUse p.name)
        declareParameters line []) :=
      (ReportsOn.changeTable _).bind fun _ => (ReportsOn.changeTable _).bind fun _ => .pure _
    exact hold ((reportsOn_declare h.parameter _ _ _ _).bind fun _ => .ite hdone (.pure _))
      fun _ => types
  | result routine => exact hold (reportsOn_declareResult routine) fun _ => types
  | «variable» n ty =>
    have hdeclare := reportsOn_declare (h n.line List.mem_cons_self) .variable n.name ty .variable
    exact hold (hdeclare.bind fun _ => .pure _) fun _ => types
  | constant n line =>
    have hmark := hold (ReportsOn.changeTable (Q := Q) (·.markInitialized n)) fun _ => types.tail
    exact (reportsOn_declare (h line List.mem_cons_self) _ _ _ _).bind fun _ =>
      .ite hmark (.pure _)
  | fragment f => exact .throw _

/-! ## Walks and runs -/

/-- **What a walk has found and declared stands on the lines of its steps.** -/
theorem standsOn_of_reaches {actions : List Action} {held : Held} {s : AnalysisState}
    (h : StandOn Q actions) (hs : Reaches catalogue actions held s) :
    s.table.StandsOn Q ∧ s.FoundOn Q := by
  induction actions using List.reverseRecOn generalizing held s with
  | nil =>
    obtain ⟨-, rfl⟩ := reaches_nil.mp hs
    exact ⟨nofun, nofun⟩
  | append_singleton actions action ih =>
    obtain ⟨hactions, haction⟩ := List.forall_mem_append.mp h
    obtain ⟨held', s', hs', hperform⟩ := reaches_concat.mp hs
    obtain ⟨htable, hfound⟩ := ih hactions hs'
    unfold Action.perform at hperform
    split at hperform
    · cases hperform
      exact ⟨htable, hfound⟩
    · have hon := haction action List.mem_cons_self
      obtain ⟨⟨heq, -⟩, -⟩ := moves_effect action held'.types s' held s hperform
      rw [heq]
      exact ⟨htable.onTable hon _, reportsOn_effect hon _ s' held s hperform hfound⟩

/-- An ambiguity is reported on the line of one of its symbols. -/
theorem reportsOn_reportGroups {finding : Symbol → List Symbol → Finding} {groups : List NameGroup}
    (h : ∀ group ∈ groups, ∀ member ∈ group.members, Q member.1.line) :
    ReportsOn Q (reportGroups finding groups) := by
  induction groups with
  | nil => exact .pure _
  | cons group rest ih =>
    have hrest := ih fun g hg => h g (List.mem_cons_of_mem _ hg)
    unfold reportGroups
    split
    · exact (ReportsOn.pure ()).bind fun _ => hrest
    next first more hmembers =>
      have hfirst : first ∈ group.members.map (·.1) := by
        rw [hmembers]
        exact List.mem_cons_self
      obtain ⟨member, hmember, rfl⟩ := List.mem_map.mp hfirst
      exact (ReportsOn.report (h group List.mem_cons_self member hmember) _).bind fun _ => hrest

end Analysis

namespace ScopeTable
variable {table : ScopeTable}

theorem mem_symbols_of_mem_numbered {symbol : NumberedSymbol} (h : symbol ∈ table.numbered) :
    symbol.1 ∈ table.symbols.toList :=
  List.fst_mem_of_mem_zipIdx h

/-- The members of a group are symbols of the table. -/
theorem mem_symbols_of_mem_groups {group : NameGroup} (h : group ∈ table.groups)
    {member : NumberedSymbol} (hmember : member ∈ group.members) :
    member.1 ∈ table.symbols.toList := by
  obtain ⟨key, -, rfl⟩ := List.mem_map.mp h
  obtain ⟨keyed, hkeyed, rfl⟩ := List.mem_map.mp hmember
  obtain ⟨symbol, hsymbol, rfl⟩ := List.mem_map.mp (List.mem_filter.mp hkeyed).1
  exact mem_symbols_of_mem_numbered (List.mem_filter.mp hsymbol).1

end ScopeTable

namespace Analysis
variable {catalogue : Catalogue}

/-- **What a run has found and declared stands on the lines of the steps of its walk.** -/
theorem standsOn_of_run {p : Program} {s : AnalysisState}
    (h : StandOn Q p.toNode.script) (hs : run catalogue p = .ok s) :
    s.table.StandsOn Q ∧ s.FoundOn Q := by
  obtain ⟨s₀, hreaches, hsummarize⟩ := run_eq_ok hs
  obtain ⟨htable, hfound⟩ := standsOn_of_reaches h hreaches
  have hgroups : ∀ group ∈ s₀.table.groups, ∀ member ∈ group.members, Q member.1.line :=
    fun group hgroup member hmember =>
      htable _ (ScopeTable.mem_symbols_of_mem_groups hgroup hmember)
  refine ⟨(run_summarize hsummarize).1 ▸ htable, ?_⟩
  obtain ⟨_, _, hget, hrest⟩ := run_bind_eq_ok.mp hsummarize
  cases hget
  obtain ⟨_, s₁, hshadowing, hrest⟩ := run_bind_eq_ok.mp hrest
  obtain ⟨_, s₂, htypes, hunused⟩ := run_bind_eq_ok.mp hrest
  have hfound₁ : s₁.FoundOn Q := by
    refine reportsOn_reportGroups (fun group hgroup => ?_) _ _ _ hshadowing hfound
    exact hgroups group (List.mem_filter.mp hgroup).1
  have hfound₂ : s₂.FoundOn Q := by
    refine reportsOn_reportGroups (fun group hgroup => ?_) _ _ _ htypes hfound₁
    exact hgroups group (List.mem_filter.mp (List.mem_filter.mp hgroup).1).1
  rw [run_reportUnused hunused]
  intro found hmem
  rw [AnalysisState.findings_reporting] at hmem
  rcases List.mem_append.mp hmem with hold | hnew
  · exact hfound₂ found hold
  · obtain ⟨symbol, hsymbol, rfl⟩ := List.mem_map.mp hnew
    exact htable _ (ScopeTable.mem_symbols_of_mem_numbered (List.mem_filter.mp hsymbol).1)

end Analysis
end PascalCheck
