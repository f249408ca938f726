import PascalCheck.Proofs.Scope.Requests
import PascalCheck.Proofs.Walk.Tables

/-! # What the steps of a walk do besides

Next to the table a walk keeps the routines that have been declared, the counters of the loops
around its place, the record of what happened to the scopes, and the reports of counters that are
modified in their loops and of names that are declared again.  A step makes of these what it is, and
what the table tells it (`Action.onMarks`, `marks_effect`). -/
namespace PascalCheck

/-- What a state has besides the table, as far as a step changes it in a way of its own. -/
structure Marks where
  routines : List DeclaredRoutine
  counters : List String
  events : List ScopeEvent
  /-- The reports of counters that are modified in their loops. -/
  modified : List LocatedFinding
  /-- The reports of names that are declared again in their scopes. -/
  redeclared : List LocatedFinding

namespace Finding

/-- The finding is that a counter is modified in its loop. -/
def isModification : Finding → Bool
  | counterModified _ => true
  | _ => false

/-- The finding is that a name is declared again in its scope. -/
def isRedeclaration : Finding → Bool
  | redeclared _ _ _ _ _ => true
  | _ => false

/-- The finding leaves no mark. -/
def IsUnmarked (finding : Finding) : Prop :=
  finding.isModification = false ∧ finding.isRedeclaration = false

theorem isUnmarked_of_isOrdinary {finding : Finding} (h : finding.isOrdinary = true) :
    finding.IsUnmarked := by
  cases finding <;> first | exact ⟨rfl, rfl⟩ | cases h

end Finding

namespace AnalysisState

/-- The reports of counters that are modified in their loops. -/
def modified (s : AnalysisState) : List LocatedFinding :=
  s.findings.toList.filter (·.finding.isModification)

/-- The reports of names that are declared again in their scopes. -/
def redeclared (s : AnalysisState) : List LocatedFinding :=
  s.findings.toList.filter (·.finding.isRedeclaration)

def marks (s : AnalysisState) : Marks :=
  ⟨s.routines, s.counters, s.events.toList, s.modified, s.redeclared⟩

theorem marks_reporting (s : AnalysisState) {found : List LocatedFinding}
    (h : ∀ f ∈ found, f.finding.IsUnmarked) : (s.reporting found).marks = s.marks := by
  have hmodified : found.filter (·.finding.isModification) = [] :=
    List.filter_eq_nil_iff.mpr fun f hf => Bool.eq_false_iff.mp (h f hf).1
  have hredeclared : found.filter (·.finding.isRedeclaration) = [] :=
    List.filter_eq_nil_iff.mpr fun f hf => Bool.eq_false_iff.mp (h f hf).2
  simp only [marks, modified, redeclared, findings_reporting, List.filter_append, hmodified,
    hredeclared, List.append_nil]
  rfl

/-- The findings stay, in front of what is found later. -/
def Continues (s s' : AnalysisState) : Prop :=
  s.findings.toList <+: s'.findings.toList

namespace Continues
variable {s s' s'' : AnalysisState}

theorem of_findings_eq (h : s'.findings = s.findings) : s.Continues s' := by
  simp [Continues, h]

theorem reporting (s : AnalysisState) (found : List LocatedFinding) :
    s.Continues (s.reporting found) := by
  simp [Continues]

theorem trans (h : s.Continues s') (h' : s'.Continues s'') : s.Continues s'' :=
  List.IsPrefix.trans h h'

end Continues
end AnalysisState

namespace Marks
variable (marks : Marks)

/-- One more event. -/
def record (event : ScopeEvent) : Marks :=
  { marks with events := marks.events ++ [event] }

/-- The routine is declared. -/
def declareRoutine (routine : DeclaredRoutine) : Marks :=
  { marks with routines := routine.insert marks.routines }

/-- The name is stored into: that is reported if a loop counts with it. -/
def store (name : String) (line : Int) : Marks :=
  if marks.counters.contains (Text.lower name) then
    { marks with modified := marks.modified ++ [⟨.counterModified name, line⟩] }
  else marks

/-- A loop begins to count. -/
def protect (key : String) : Marks :=
  { marks with
    counters := if marks.counters.contains key then marks.counters else key :: marks.counters }

/-- A loop ends. -/
def unprotect (key : String) : Marks :=
  { marks with counters := marks.counters.filter (· != key) }

end Marks

namespace ScopeTable
variable (table : ScopeTable)

/-- The event that a scope is opened. -/
def opening (name : String) : ScopeEvent :=
  .opened (table.push name).current.name (table.push name).depth

/-- The event that the innermost scope is closed. -/
def closing : ScopeEvent :=
  .closed table.current.name table.current.entries.length table.pop.current.name table.pop.depth

/-- The event that a name is declared, or should be. -/
def declaring (name : String) (ty : Ty) (line : Int) (category : Category) : ScopeEvent :=
  .declared name ty table.current.name line (table.declare? name ty line category).isSome

/-- The report that a name is declared in the innermost scope already, if it is. -/
def redeclaring (what : Declared) (name : String) (line : Int) : List LocatedFinding :=
  ((table.findCurrent? name).map fun existing => LocatedFinding.mk
    (.redeclared what name table.current.name existing.ty existing.line) line).toList

end ScopeTable

theorem AnalysisState.marks_redeclaring (s : AnalysisState) (table : ScopeTable) (what : Declared)
    (name : String) (line : Int) :
    (s.reporting (table.redeclaring what name line)).marks =
      { s.marks with redeclared := s.marks.redeclared ++ table.redeclaring what name line } := by
  unfold ScopeTable.redeclaring
  cases table.findCurrent? name with
  | none => simp [reporting_nil]
  | some existing =>
    simp [marks, modified, redeclared, reporting, Finding.isModification, Finding.isRedeclaration]

/-- A name is declared, or reported if it is declared already. -/
def Marks.declare (marks : Marks) (table : ScopeTable) (what : Declared) (name : String) (ty : Ty)
    (line : Int) (category : Category) : Marks :=
  { marks.record (table.declaring name ty line category) with
    redeclared := marks.redeclared ++ table.redeclaring what name line }

/-- The name of a function is declared for its result. -/
def Marks.declareResult (marks : Marks) (table : ScopeTable) (routine : DeclaredRoutine) : Marks :=
  match routine.result with
  | some ty => marks.record (table.declaring routine.name ty routine.line .result)
  | none => marks

/-- What a step that is not passed over makes of the marks. -/
def Action.onMarks (types : List Ty) (table : ScopeTable) (marks : Marks) : Action → Marks
  | target n line | read _ n line =>
    if (table.find? n).isSome then marks.store n line else marks
  | enterLoop n => if Text.lower n = "" then marks else marks.protect (Text.lower n)
  | leaveLoop n => marks.unprotect (Text.lower n)
  | openBlock line => marks.record (table.opening s!"block_line_{line}")
  | enterRoutine routine => (marks.declareRoutine routine).record (table.opening routine.key)
  | closeBlock | leaveRoutine => marks.record table.closing
  | parameter line p =>
    marks.declare table .parameter p.name (Ty.resolve p.typeSpec.name)
      (if p.line = 0 then line else p.line) .variable
  | result routine => marks.declareResult table routine
  | «variable» n ty => marks.declare table .variable n.name ty n.line .variable
  | constant n line => marks.declare table .constant n (top types) line .constant
  | _ => marks

namespace Analysis
variable {α β : Type} {catalogue : Catalogue}

/-! ## Steps that leave marks -/

/-- Every run of the step makes of the marks what the function makes of them and the table, and
takes no finding back. -/
def Marking (m : Analysis α) (f : ScopeTable → Marks → Marks) : Prop :=
  ∀ s a s', StateT.run m s = .ok (a, s') → s'.marks = f s.table s.marks ∧ s.Continues s'

/-- The step leaves the marks as they are. -/
abbrev Unmarking (m : Analysis α) : Prop :=
  Marking m fun _ marks => marks

/-- The step leaves the table and the marks as they are. -/
structure Passing (m : Analysis α) : Prop where
  keeps : Keeps m
  unmarking : Unmarking m

theorem Looks.passing {m : Analysis α} (h : Looks m) : Passing m where
  keeps := h.keeps
  unmarking s a s' hm := by
    obtain ⟨found, rfl, hfound⟩ := h s a s' hm
    have hmarks := s.marks_reporting fun f hf => Finding.isUnmarked_of_isOrdinary (hfound f hf)
    exact ⟨hmarks, .reporting s found⟩

namespace Marking
variable {m n : Analysis α} {k : α → Analysis β} {f : ScopeTable → Marks → Marks}

theorem pure (a : α) : Unmarking (pure a) :=
  (Looks.pure a).passing.unmarking

/-- Two steps that leave marks, the first of which leaves the table as it is. -/
theorem andThen {g : ScopeTable → Marks → Marks} (hkeeps : Keeps m) (h : Marking m f)
    (hk : ∀ a, Marking (k a) g) :
    Marking (m >>= k) fun table marks => g table (f table marks) := by
  intro s b s'' hb
  obtain ⟨a, s', hm, hka⟩ := run_bind_eq_ok.mp hb
  have htable : s'.table = s.table := (hkeeps s a s' hm).1
  obtain ⟨hmarks, hcontinues⟩ := h s a s' hm
  obtain ⟨hmarks', hcontinues'⟩ := hk a s' b s'' hka
  exact ⟨by rw [hmarks', htable, hmarks], hcontinues.trans hcontinues'⟩

/-- A step with another one in front of it that leaves everything as it is. -/
theorem after (h : Passing m) (hk : ∀ a, Marking (k a) f) : Marking (m >>= k) f :=
  andThen h.keeps h.unmarking hk

/-- A step with others behind it that leave no marks. -/
theorem before (h : Marking m f) (hk : ∀ a, Unmarking (k a)) : Marking (m >>= k) f := by
  intro s b s'' hb
  obtain ⟨a, s', hm, hka⟩ := run_bind_eq_ok.mp hb
  obtain ⟨hmarks, hcontinues⟩ := h s a s' hm
  obtain ⟨hmarks', hcontinues'⟩ := hk a s' b s'' hka
  exact ⟨hmarks'.trans hmarks, hcontinues.trans hcontinues'⟩

theorem ite {p : Prop} [Decidable p] (hm : Marking m f) (hn : Marking n f) :
    Marking (if p then m else n) f := by
  split
  · exact hm
  · exact hn

/-- Behind a look at what a name means. -/
theorem symbol?_bind {name : String} {k : Option Symbol → Analysis β}
    (h : ∀ found s a s', found = s.table.find? name → StateT.run (k found) s = .ok (a, s') →
      s'.marks = f s.table s.marks ∧ s.Continues s') : Marking (symbol? name >>= k) f := by
  intro s b s'' hb
  obtain ⟨found, s', hsymbol, hk⟩ := run_bind_eq_ok.mp hb
  cases hsymbol
  exact h _ s b s'' rfl hk

/-- A change of the state that finds nothing. -/
theorem of_modify {change : AnalysisState → AnalysisState}
    (hmarks : ∀ s, (change s).marks = f s.table s.marks)
    (hfindings : ∀ s, (change s).findings = s.findings) : Marking (modify change) f := by
  intro s a s' hm
  cases hm
  exact ⟨hmarks s, .of_findings_eq (hfindings s)⟩

end Marking

theorem unmarking_changeTable (change : ScopeTable → ScopeTable) :
    Unmarking (changeTable change) :=
  .of_modify (fun _ => rfl) fun _ => rfl

theorem marking_protect (key : String) :
    Marking (protect key) fun _ marks => marks.protect key :=
  .of_modify (fun _ => rfl) fun _ => rfl

theorem marking_unprotect (key : String) :
    Marking (unprotect key) fun _ marks => marks.unprotect key :=
  .of_modify (fun _ => rfl) fun _ => rfl

theorem run_report {line : Int} {finding : Finding} {s s' : AnalysisState}
    (h : StateT.run (report line finding) s = .ok ((), s')) :
    s' = s.reporting [⟨finding, line⟩] := by
  cases h
  simp [AnalysisState.reporting]

theorem run_checkNotCounter {name : String} {line : Int} {s s' : AnalysisState}
    (h : StateT.run (checkNotCounter name line) s = .ok ((), s')) :
    s' = s.reporting (if s.counters.contains (Text.lower name) then
      [⟨.counterModified name, line⟩] else []) := by
  obtain ⟨_, _, hget, h⟩ := run_bind_eq_ok.mp h
  cases hget
  by_cases hcounts : s.counters.contains (Text.lower name) = true
  · rw [if_pos hcounts] at h ⊢
    exact run_report h
  · rw [if_neg hcounts] at h ⊢
    cases h
    exact s.reporting_nil.symm

theorem marking_checkNotCounter (name : String) (line : Int) :
    Marking (checkNotCounter name line) fun _ marks => marks.store name line := by
  intro s a s' h
  rw [run_checkNotCounter h]
  refine ⟨?_, .reporting s _⟩
  unfold Marks.store
  show _ = if s.counters.contains (Text.lower name) = true then _ else _
  split
  · simp [AnalysisState.marks, AnalysisState.modified, AnalysisState.redeclared,
      AnalysisState.reporting, Finding.isModification, Finding.isRedeclaration]
  · rw [s.reporting_nil]

theorem unmarking_nameType (name : String) (line : Int) :
    Unmarking (nameType catalogue name line) := by
  refine .after (looks_symbol? name).passing fun found => ?_
  split
  · have huse : ∀ ty : Ty, Unmarking (do changeTable (·.countUse name); return ty) := fun ty =>
      (unmarking_changeTable _).before fun _ => .pure ty
    exact .ite (huse _) (.after (Looks.report line rfl).passing fun _ => huse _)
  · have hroutine : Looks (isRoutine catalogue name) := (looks_routine? name).bind fun _ => .pure _
    have hcall : Looks (do
        if ← isRoutine catalogue name then callType catalogue name [] line
        else reject line (.undeclared name)) :=
      hroutine.bind fun _ => .ite (looks_callType name [] line) (looks_reject line rfl)
    exact hcall.passing.unmarking

theorem unmarking_elementType (name : String) (line : Int) :
    Unmarking (elementType name line) := by
  refine .after (looks_symbol? name).passing fun found => ?_
  split
  · exact (unmarking_changeTable _).before fun _ => .pure _
  · exact (looks_reject line rfl).passing.unmarking

theorem unmarking_checkCounter (name : String) (line : Int) :
    Unmarking (checkCounter name line) := by
  refine .ite (.after (looks_symbol? name).passing fun found => ?_) (.pure ())
  cases found with
  | none => exact (Looks.report line rfl).passing.unmarking
  | some symbol =>
    refine .ite (Looks.report line rfl).passing.unmarking ?_
    have hcount : Unmarking (do
        changeTable (·.markInitialized name)
        if symbol.category = .variable then changeTable (·.setCategory name .counter)) :=
      (unmarking_changeTable _).before fun _ => .ite (unmarking_changeTable _) (.pure ())
    exact .ite hcount (.after (Looks.report line rfl).passing fun _ => hcount)

theorem marking_storeRead (routine name : String) (line : Int) :
    Marking (storeRead routine name line) fun table marks =>
      if (table.find? name).isSome then marks.store name line else marks := by
  refine .symbol?_bind fun found s a s' hfound h => ?_
  rw [← hfound]
  cases found with
  | none => exact (Looks.report line rfl).passing.unmarking s a s' h
  | some symbol =>
    have hstore : Marking (do
        checkNotCounter name line
        changeTable (·.markInitialized name)
        changeTable (·.countUse name)) fun _ marks => marks.store name line :=
      (marking_checkNotCounter name line).before fun _ =>
        (unmarking_changeTable _).before fun _ => unmarking_changeTable _
    have hread : Marking (do
        if symbol.ty.same .boolean then report line (.readBoolean name (Text.upper routine))
        checkNotCounter name line
        changeTable (·.markInitialized name)
        changeTable (·.countUse name)) fun _ marks => marks.store name line :=
      .ite (.after (Looks.report line rfl).passing fun _ => hstore) hstore
    exact hread s a s' h

/-! ## Scopes and declarations -/

theorem marking_openScope (name : String) :
    Marking (openScope name) fun table marks => marks.record (table.opening name) :=
  .of_modify (fun s => by simp [AnalysisState.marks, AnalysisState.modified,
    AnalysisState.redeclared, Marks.record, ScopeTable.opening]) fun _ => rfl

theorem marking_closeScope :
    Marking closeScope fun table marks => marks.record table.closing :=
  .of_modify (fun s => by simp [AnalysisState.marks, AnalysisState.modified,
    AnalysisState.redeclared, Marks.record, ScopeTable.closing]) fun _ => rfl

theorem marking_declareSilently (name : String) (ty : Ty) (line : Int) (category : Category) :
    Marking (declareSilently name ty line category) fun table marks =>
      marks.record (table.declaring name ty line category) := by
  intro s a s' h
  obtain ⟨_, _, hget, h⟩ := run_bind_eq_ok.mp h
  cases hget
  dsimp only at h
  cases hd : s.table.declare? name ty line category with
  | some table | none =>
    rw [hd] at h
    cases h
    refine ⟨?_, .of_findings_eq rfl⟩
    simp [AnalysisState.marks, AnalysisState.modified, AnalysisState.redeclared, Marks.record,
      ScopeTable.declaring, hd]

/-- A name that is declared in the innermost scope already is reported, and no other one. -/
theorem run_declare {what : Declared} {name : String} {ty : Ty} {line : Int} {category : Category}
    {s s' : AnalysisState} {declared : Bool}
    (h : StateT.run (declare what name ty line category) s = .ok (declared, s')) :
    ∃ there, StateT.run (declareSilently name ty line category) s = .ok (declared, there) ∧
      s' = there.reporting (s.table.redeclaring what name line) := by
  obtain ⟨silently, there, hsilently, h⟩ := run_bind_eq_ok.mp h
  obtain ⟨⟨hdeclared, htable⟩, -⟩ := moves_declareSilently name ty line category _ _ _ hsilently
  cases hd : s.table.declare? name ty line category with
  | some table =>
    have hnone : s.table.redeclaring what name line = [] := by
      rw [ScopeTable.redeclaring, ScopeTable.findCurrent?, (ScopeTable.declare?_eq_some hd).1]
      rfl
    obtain rfl : silently = true := by rw [hdeclared, hd]; rfl
    cases h
    exact ⟨_, hsilently, by rw [hnone, AnalysisState.reporting_nil]⟩
  | none =>
    obtain rfl : silently = false := by rw [hdeclared, hd]; rfl
    obtain ⟨_, _, hget, h⟩ := run_bind_eq_ok.mp h
    cases hget
    have hsame : there.table = s.table := by rw [htable, hd]; rfl
    dsimp only at h
    rw [hsame] at h
    unfold ScopeTable.redeclaring
    cases hfound : s.table.findCurrent? name with
    | none =>
      rw [hfound] at h
      cases h
      exact ⟨_, hsilently, (AnalysisState.reporting_nil _).symm⟩
    | some existing =>
      rw [hfound] at h
      obtain ⟨_, reported, hreport, h⟩ := run_bind_eq_ok.mp h
      cases h
      exact ⟨there, hsilently, run_report hreport⟩

theorem marking_declare (what : Declared) (name : String) (ty : Ty) (line : Int)
    (category : Category) :
    Marking (declare what name ty line category) fun table marks =>
      marks.declare table what name ty line category := by
  intro s a s' h
  obtain ⟨there, hsilently, rfl⟩ := run_declare h
  obtain ⟨hmarks, hcontinues⟩ := marking_declareSilently name ty line category _ _ _ hsilently
  refine ⟨?_, hcontinues.trans (.reporting there _)⟩
  rw [there.marks_redeclaring, hmarks]
  rfl

theorem marking_declareResult (routine : DeclaredRoutine) :
    Marking (declareResult routine) fun table marks => marks.declareResult table routine := by
  unfold declareResult Marks.declareResult
  cases routine.result with
  | none => exact .pure ()
  | some ty =>
    exact (marking_declareSilently _ _ _ _).before fun declared =>
      .ite (unmarking_changeTable _) (.pure ())

theorem marking_enterRoutine (routine : DeclaredRoutine) :
    Marking (Analysis.enterRoutine routine) fun _ marks => marks.declareRoutine routine := by
  have hadd : Marking (addRoutine routine) fun _ marks => marks.declareRoutine routine :=
    .of_modify (fun _ => rfl) fun _ => rfl
  refine .after (looks_routine? _).passing fun found => ?_
  split
  · exact .after (Looks.report _ rfl).passing fun _ => hadd
  · exact hadd

/-! ## The steps of a walk -/

/-- A step, and then something to hold. -/
theorem Marking.hold {m : Analysis α} {f : ScopeTable → Marks → Marks} (h : Marking m f)
    (types : α → List Ty) : Marking (do return ⟨types (← m), false⟩ : Analysis Held) f :=
  h.before fun _ => .pure _

theorem marking_target (n : String) (line : Int) (types : List Ty) :
    Marking ((Action.target n line).effect catalogue types) fun table marks =>
      (Action.target n line).onMarks types table marks := by
  refine .symbol?_bind fun found s a s' hfound h => ?_
  simp only [Action.onMarks, ← hfound]
  cases found with
  | none => exact ((Looks.report line rfl).bind fun _ => Looks.pure _).passing.unmarking s a s' h
  | some symbol =>
    have hrest : ∀ held : Held, Unmarking (do
        if symbol.category = .constant then
          report line (.constantAssigned n)
          return ⟨types, true⟩
        else return held) := fun held =>
      (((Looks.report line rfl).bind fun _ => Looks.pure _).ite (Looks.pure held)).passing.unmarking
    exact (marking_checkNotCounter n line).before (fun _ => hrest _) s a s' h

/-- **A step that is not passed over** makes of the marks what it is, and what the table tells. -/
theorem marks_effect (action : Action) (types : List Ty) :
    Marking (action.effect catalogue types) fun table marks =>
      action.onMarks types table marks := by
  have looking : ∀ {α : Type} {m : Analysis α}, Looks m → ∀ types : α → List Ty,
      Unmarking (do return ⟨types (← m), false⟩ : Analysis Held) := fun h types =>
    h.passing.unmarking.hold types
  cases action with
  | give ty => exact .pure _
  | literal typeName => exact looking (looks_literalType typeName) fun ty => ty :: types
  | name n line => exact (unmarking_nameType n line).hold fun ty => ty :: types
  | element n line => exact (unmarking_elementType n line).hold fun ty => ty :: types.tail
  | call n arguments line =>
    exact looking (looks_callType n _ line) fun ty => ty :: types.drop arguments
  | binary op line => exact looking (looks_binaryType op _ _ line) fun ty => ty :: types.drop 2
  | unary op line => exact looking (looks_unaryType op _ line) fun ty => ty :: types.tail
  | discard count => exact .pure _
  | condition statement line | bound which line =>
    exact .ite (.pure _) (.after (Looks.report line rfl).passing fun _ => .pure _)
  | target n line => exact marking_target n line types
  | store n line =>
    have hold : Unmarking (do
        changeTable (·.markInitialized n)
        return ⟨types.drop 3, false⟩ : Analysis Held) := (unmarking_changeTable _).hold _
    exact .ite hold (.ite (.after (Looks.report line rfl).passing fun _ => hold)
      (.after (Looks.report line rfl).passing fun _ => hold))
  | counter n line => exact (unmarking_checkCounter n line).hold fun _ => types
  | enterLoop n =>
    unfold Action.effect Action.onMarks
    by_cases hn : Text.lower n = ""
    · simp only [hn, ne_eq, not_true_eq_false, if_false, if_true]
      exact .pure _
    · simp only [hn, ne_eq, not_false_eq_true, if_false, if_true]
      exact (marking_protect _).hold fun _ => types
  | leaveLoop n => exact (marking_unprotect _).hold fun _ => types
  | read routine n line => exact (marking_storeRead routine n line).hold fun _ => types
  | invoke n arguments line => exact looking (looks_checkCall n arguments line) fun _ => types
  | openBlock line => exact (marking_openScope _).hold fun _ => types
  | closeBlock | leaveRoutine => exact marking_closeScope.hold fun _ => types
  | enterRoutine routine =>
    exact .andThen (keeps_enterRoutine routine) (marking_enterRoutine routine) fun _ =>
      (marking_openScope _).hold fun _ => types
  | parameter line p =>
    have hmark := unmarking_changeTable (·.markInitialized p.name)
    have hdone : Unmarking (do
        changeTable (·.markInitialized p.name)
        changeTable (·.countUse p.name)
        declareParameters line []) :=
      hmark.before fun _ => (unmarking_changeTable _).before fun _ => .pure ()
    refine Marking.hold (Marking.before (marking_declare _ _ _ _ _) fun declared => ?_)
      fun _ => types
    exact .ite hdone (.pure ())
  | result routine => exact (marking_declareResult routine).hold fun _ => types
  | «variable» n ty =>
    have h : Marking (declareVariables ty [n])
        fun table marks => marks.declare table .variable n.name ty n.line .variable :=
      (marking_declare _ _ _ _ _).before fun _ => .pure ()
    exact h.hold fun _ => types
  | constant n line =>
    refine (marking_declare _ _ _ _ _).before fun declared => ?_
    exact .ite ((unmarking_changeTable _).hold fun _ => types.tail) (.pure _)
  | fragment f =>
    intro s a s' h
    cases h

end Analysis
end PascalCheck
