import PascalCheck.Analysis.Statement
import PascalCheck.Proofs.LetterCase.Tree

/-! # Analysis does not see the case of names

An analysis whose state and whose program have their names in lower case does what it does with the
names themselves, and all that it records has its names in lower case: every comparison of names
takes both in lower case. -/
namespace PascalCheck

/-! ## States -/

/-- The symbol with its name in lower case. -/
def Symbol.foldName (symbol : Symbol) : Symbol :=
  { symbol with name := symbol.name.toLower }

/-- The table with the names of its symbols in lower case. -/
def ScopeTable.foldNames (table : ScopeTable) : ScopeTable :=
  { table with symbols := table.symbols.map Symbol.foldName }

/-- The routine with its name in lower case. -/
def DeclaredRoutine.foldName (routine : DeclaredRoutine) : DeclaredRoutine :=
  { routine with name := routine.name.toLower }

namespace Finding

/-- The finding with its names in lower case. -/
def foldNames : Finding → Finding
  | redeclared what name scope ty line => redeclared what name.toLower scope ty line
  | routineRedeclared kind name previous line => routineRedeclared kind name.toLower previous line
  | undeclared name => undeclared name.toLower
  | counterModified name => counterModified name.toLower
  | constantAssigned name => constantAssigned name.toLower
  | narrowed name => narrowed name.toLower
  | mismatch value name ty => mismatch value name.toLower ty
  | condition statement ty => condition statement ty
  | counterUndeclared name => counterUndeclared name.toLower
  | counterConstant name => counterConstant name.toLower
  | counterType name ty => counterType name.toLower ty
  | bound which ty => bound which ty
  | readUndeclared name routine => readUndeclared name.toLower routine
  | readBoolean name routine => readBoolean name.toLower routine
  | builtinArity kind name arity given => builtinArity kind name.toLower arity given
  | resultUnused name => resultUnused name.toLower
  | routineArity kind name expected given => routineArity kind name.toLower expected given
  | variableCalled name => variableCalled name.toLower
  | unknownProcedure name => unknownProcedure name.toLower
  | uninitialized name => uninitialized name.toLower
  | elementUndeclared name => elementUndeclared name.toLower
  | noValue name => noValue name.toLower
  | variableApplied name => variableApplied name.toLower
  | unknownFunction name => unknownFunction name.toLower
  | incompatible op left right => incompatible op left right
  | notOperand ty => notOperand ty
  | negated ty => negated ty
  | shadowing first sites => shadowing first.foldName (sites.map Symbol.foldName)
  | typeAmbiguity first sites => typeAmbiguity first.foldName (sites.map Symbol.foldName)
  | unused name line => unused name.toLower line

end Finding

/-- The finding with its names in lower case, on its line. -/
def LocatedFinding.foldNames (found : LocatedFinding) : LocatedFinding :=
  { found with finding := found.finding.foldNames }

namespace ScopeEvent

/-- The event with the name that it is about in lower case; scopes have theirs so already. -/
def foldName : ScopeEvent → ScopeEvent
  | opened scope depth => opened scope depth
  | closed scope symbols current depth => closed scope symbols current depth
  | declared name ty scope line success => declared name.toLower ty scope line success

end ScopeEvent

/-- The state with its names in lower case. -/
def AnalysisState.foldNames (s : AnalysisState) : AnalysisState where
  table := s.table.foldNames
  routines := s.routines.map DeclaredRoutine.foldName
  counters := s.counters
  findings := s.findings.map LocatedFinding.foldNames
  events := s.events.map ScopeEvent.foldName

/-! ## Tables -/

namespace ScopeTable
variable (table : ScopeTable)

@[simp] theorem current_foldNames : table.foldNames.current = table.current := rfl

/-- A name is looked up in lower case, so that it leads to the same symbol. -/
@[simp] theorem lookup_foldNames (name : String) :
    table.foldNames.lookup name.toLower = table.lookup name := by
  simp only [lookup, Text.lower_toLower]
  rfl

/-- The symbol that is found is the same up to the case of its name. -/
@[simp] theorem find?_foldNames (name : String) :
    table.foldNames.find? name.toLower = (table.find? name).map Symbol.foldName := by
  simp only [find?, lookup_foldNames]
  cases table.lookup name with
  | none => rfl
  | some number => simp [foldNames]

/-- So is the one that is found in the innermost scope. -/
@[simp] theorem findCurrent?_foldNames (name : String) :
    table.foldNames.findCurrent? name.toLower = (table.findCurrent? name).map Symbol.foldName := by
  have hlookup : table.foldNames.lookupCurrent name.toLower = table.lookupCurrent name := by
    simp only [lookupCurrent, Text.lower_toLower]
    rfl
  simp only [findCurrent?, hlookup]
  cases table.lookupCurrent name with
  | none => rfl
  | some number => simp [foldNames]

/-- A change of the innermost scope leaves the names of symbols alone. -/
theorem withCurrent_foldNames (scope : Scope) :
    table.foldNames.withCurrent scope = (table.withCurrent scope).foldNames := by
  obtain ⟨symbols, inner, outermost, opened⟩ := table
  cases inner <;> rfl

/-- **A declaration succeeds or fails whatever the case of its name**, and records the name as it is
written. -/
theorem declare?_foldNames (name : String) (ty : Ty) (line : Int) (category : Category) :
    table.foldNames.declare? name.toLower ty line category =
      (table.declare? name ty line category).map foldNames := by
  simp only [declare?, Text.lower_toLower, current_foldNames]
  cases table.current.number? (Text.lower name) with
  | some number => rfl
  | none =>
    simp only [Option.map_some, withCurrent_foldNames]
    simp [foldNames, Symbol.foldName]

/-- A change of a symbol that leaves its name alone does not see its case. -/
theorem update_foldNames (name : String) {change : Symbol → Symbol}
    (h : ∀ symbol, change symbol.foldName = (change symbol).foldName) :
    table.foldNames.update name.toLower change = (table.update name change).foldNames := by
  simp only [update, lookup_foldNames]
  cases table.lookup name with
  | none => rfl
  | some number =>
    have hmodify : (table.symbols.map Symbol.foldName).modify number change =
        (table.symbols.modify number change).map Symbol.foldName := by
      refine Array.ext_getElem? fun i => ?_
      simp only [Array.getElem?_modify, Array.getElem?_map]
      split
      · cases table.symbols[i]? <;> simp [h]
      · rfl
    simp only [foldNames, hmodify]

@[simp] theorem markInitialized_foldNames (name : String) :
    table.foldNames.markInitialized name.toLower = (table.markInitialized name).foldNames :=
  table.update_foldNames name fun _ => rfl

@[simp] theorem countUse_foldNames (name : String) :
    table.foldNames.countUse name.toLower = (table.countUse name).foldNames :=
  table.update_foldNames name fun _ => rfl

@[simp] theorem setCategory_foldNames (name : String) (category : Category) :
    table.foldNames.setCategory name.toLower category =
      (table.setCategory name category).foldNames :=
  table.update_foldNames name fun _ => rfl

end ScopeTable

/-! ## Routines -/

namespace DeclaredRoutine

/-- Routines are known by their names in lower case. -/
@[simp] theorem key_foldName (routine : DeclaredRoutine) : routine.foldName.key = routine.key :=
  Text.lower_toLower routine.name

/-- So the same routine gives way to a new one. -/
theorem insert_foldName (routine : DeclaredRoutine) (routines : List DeclaredRoutine) :
    routine.foldName.insert (routines.map foldName) = (routine.insert routines).map foldName := by
  induction routines with
  | nil => rfl
  | cons other rest ih =>
    simp only [List.map_cons, insert, key_foldName]
    split
    · rfl
    · rw [List.map_cons, ih]

/-- And the same one is found. -/
theorem find?_key_map_foldName (routines : List DeclaredRoutine) (key : String) :
    (routines.map foldName).find? (·.key == key) =
      (routines.find? (·.key == key)).map foldName := by
  simp only [List.find?_map, Function.comp_def, key_foldName]

end DeclaredRoutine

/-! ## Steps -/

namespace Analysis

/-- From a state with its names in lower case, the second step does what the first one does from the
state itself, with names in lower case. -/
def FoldsTo {α : Type} (fold : α → α) (m folded : Analysis α) : Prop :=
  ∀ s : AnalysisState, StateT.run folded s.foldNames =
    (StateT.run m s).map fun r => (fold r.1, r.2.foldNames)

namespace FoldsTo
variable {α β : Type} {f : α → α} {g : β → β}

theorem pure {a b : α} (h : b = f a) : FoldsTo f (pure a) (pure b) := by
  intro s
  rw [h]
  rfl

theorem throw (fault : Fault) : FoldsTo f (throw fault) (throw fault) :=
  fun _ => rfl

/-- One step after the other: the second one is given the folded value of the first. -/
theorem bind {m m' : Analysis α} {k k' : α → Analysis β} (h : FoldsTo f m m')
    (hk : ∀ a, FoldsTo g (k a) (k' (f a))) : FoldsTo g (m >>= k) (m' >>= k') := by
  intro s
  rw [StateT.run_bind, StateT.run_bind, h s]
  cases StateT.run m s with
  | error => rfl
  | ok r => exact hk r.1 r.2

/-- The state that is asked for is the folded one. -/
theorem get : FoldsTo AnalysisState.foldNames get get :=
  fun _ => rfl

theorem set {s s' : AnalysisState} (h : s' = s.foldNames) : FoldsTo id (set s) (set s') := by
  rw [h]
  exact fun _ => rfl

/-- Both steps decide alike, so that it is enough to compare their branches. -/
theorem ite {c : Prop} [Decidable c] {m m' n n' : Analysis α} (hm : FoldsTo f m m')
    (hn : FoldsTo f n n') : FoldsTo f (if c then m else n) (if c then m' else n') := by
  split
  · exact hm
  · exact hn

/-- A change of the state that commutes with folding. -/
theorem modify {change change' : AnalysisState → AnalysisState}
    (h : ∀ s, change' s.foldNames = (change s).foldNames) :
    FoldsTo id (modify change) (modify change') := by
  intro s
  show Except.ok ((), change' s.foldNames) = Except.ok ((), (change s).foldNames)
  rw [h]

end FoldsTo

/-- A finding is reported with its names in lower case. -/
theorem foldsTo_report (line : Int) {finding folded : Finding} (h : folded = finding.foldNames) :
    FoldsTo id (report line finding) (report line folded) := by
  rw [h]
  refine .modify fun s => ?_
  simp [AnalysisState.foldNames, LocatedFinding.foldNames]

/-- The symbol of a name, up to the case of its own name. -/
theorem foldsTo_symbol? (name : String) :
    FoldsTo (Option.map Symbol.foldName) (symbol? name) (symbol? name.toLower) :=
  .bind .get fun s => .pure (s.table.find?_foldNames name)

/-- The routine of a name, likewise. -/
theorem foldsTo_routine? (name : String) :
    FoldsTo (Option.map DeclaredRoutine.foldName) (routine? name) (routine? name.toLower) := by
  refine .bind .get fun s => .pure ?_
  rw [Text.lower_toLower]
  exact DeclaredRoutine.find?_key_map_foldName s.routines _

theorem foldsTo_addRoutine (routine : DeclaredRoutine) :
    FoldsTo id (addRoutine routine) (addRoutine routine.foldName) :=
  .modify fun s => by simp [AnalysisState.foldNames, DeclaredRoutine.insert_foldName]

theorem foldsTo_changeTable {change change' : ScopeTable → ScopeTable}
    (h : ∀ table, change' table.foldNames = (change table).foldNames) :
    FoldsTo id (changeTable change) (changeTable change') :=
  .modify fun s => by simp [AnalysisState.foldNames, h]

theorem foldsTo_openScope (name : String) : FoldsTo id (openScope name) (openScope name) := by
  refine .modify fun s => ?_
  simp only [AnalysisState.foldNames, Array.map_push]
  rfl

theorem foldsTo_closeScope : FoldsTo id closeScope closeScope := by
  refine .modify fun s => ?_
  simp only [AnalysisState.foldNames, Array.map_push]
  rfl

/-- Whether a name can be declared, and what is recorded of it. -/
theorem foldsTo_declareSilently (name : String) (ty : Ty) (line : Int) (category : Category) :
    FoldsTo id (declareSilently name ty line category)
      (declareSilently name.toLower ty line category) := by
  refine FoldsTo.get.bind fun s => ?_
  have hpush : ∀ (table : ScopeTable) (success : Bool),
      { s.foldNames with
        table := table.foldNames
        events := s.foldNames.events.push
          (.declared name.toLower ty s.foldNames.table.current.name line success) } =
      ({ s with
        table
        events := s.events.push (.declared name ty s.table.current.name line success) } :
        AnalysisState).foldNames := by
    intro table success
    simp only [AnalysisState.foldNames, Array.map_push]
    rfl
  have htable : s.foldNames.table.declare? name.toLower ty line category =
      (s.table.declare? name ty line category).map ScopeTable.foldNames :=
    s.table.declare?_foldNames name ty line category
  dsimp only
  rw [htable]
  cases s.table.declare? name ty line category with
  | none => exact (FoldsTo.set (hpush s.table false)).bind fun _ => .pure rfl
  | some table => exact (FoldsTo.set (hpush table true)).bind fun _ => .pure rfl

/-- The report of a second declaration names the first one by its type and line, not by its
spelling. -/
theorem foldsTo_declare (what : Declared) (name : String) (ty : Ty) (line : Int)
    (category : Category) :
    FoldsTo id (declare what name ty line category)
      (declare what name.toLower ty line category) := by
  refine (foldsTo_declareSilently name ty line category).bind fun declared => ?_
  cases declared with
  | true => exact .pure rfl
  | false =>
    refine FoldsTo.get.bind fun s => ?_
    have hexisting : s.foldNames.table.findCurrent? name.toLower =
        (s.table.findCurrent? name).map Symbol.foldName :=
      s.table.findCurrent?_foldNames name
    dsimp only [id]
    rw [hexisting]
    cases s.table.findCurrent? name with
    | none => exact .pure rfl
    | some existing => exact (foldsTo_report line rfl).bind fun _ => .pure rfl

/-- Counters are protected in lower case. -/
theorem foldsTo_protect (key : String) : FoldsTo id (protect key) (protect key) :=
  .modify fun _ => rfl

theorem foldsTo_unprotect (key : String) : FoldsTo id (unprotect key) (unprotect key) :=
  .modify fun _ => rfl

/-- So a name is found among them in any case. -/
theorem foldsTo_checkNotCounter (name : String) (line : Int) :
    FoldsTo id (checkNotCounter name line) (checkNotCounter name.toLower line) := by
  refine FoldsTo.get.bind fun s => ?_
  rw [Text.lower_toLower]
  exact .ite (foldsTo_report line rfl) (.pure rfl)

end Analysis
end PascalCheck
