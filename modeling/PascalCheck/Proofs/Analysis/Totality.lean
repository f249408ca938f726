import PascalCheck.Analysis.Summary
import PascalCheck.Proofs.Grammar.NamedTypes

/-! # Every walk gives a result

A walk over a tree that can be walked gives a result from every state, where every built-in function
has a result: there is one lemma for each step, and the walk is put together from them along the
tree. -/
namespace PascalCheck
namespace Analysis

/-! ## Steps that change the state -/

/-- A change of the state always succeeds. -/
theorem returns_modify (change : AnalysisState → AnalysisState) :
    Returns (modify change : Analysis Unit) :=
  fun s => ⟨(), change s, rfl⟩

theorem returns_get : Returns (get : Analysis AnalysisState) :=
  fun s => ⟨s, s, rfl⟩

/-- A declaration tells whether it was possible. -/
theorem returns_declareSilently (name : String) (ty : Ty) (line : Int) (category : Category) :
    Returns (declareSilently name ty line category) := by
  refine returns_get.bind fun s => ?_
  split
  · exact fun _ => ⟨true, _, rfl⟩
  · exact fun _ => ⟨false, _, rfl⟩

/-- A declaration that is not possible is reported, and the walk goes on. -/
theorem returns_declare (what : Declared) (name : String) (ty : Ty) (line : Int)
    (category : Category) : Returns (declare what name ty line category) := by
  refine (returns_declareSilently name ty line category).bind fun declared => ?_
  split
  · exact returns_pure _
  · refine returns_get.bind fun s => ?_
    dsimp only
    split
    · exact (returns_report line _).bind fun _ => returns_pure _
    · exact returns_pure _

/-- So is a change of a protected counter. -/
theorem returns_checkNotCounter (name : String) (line : Int) :
    Returns (checkNotCounter name line) := by
  refine returns_get.bind fun s => ?_
  split
  · exact returns_report line _
  · exact returns_pure _

/-- Variables are declared one after the other, whatever comes of each. -/
theorem returns_declareVariables (ty : Ty) (names : List DeclaredName) :
    Returns (declareVariables ty names) := by
  induction names with
  | nil => exact returns_pure _
  | cons d rest ih => exact (returns_declare _ _ _ _ _).bind fun _ => ih

theorem returns_walkVarSection (declarations : List VarDeclaration) :
    Returns (walkVarSection declarations) := by
  induction declarations with
  | nil => exact returns_pure _
  | cons d rest ih => exact (returns_declareVariables _ _).bind fun _ => ih

/-- So are parameters. -/
theorem returns_declareParameters (line : Int) (parameters : List Parameter) :
    Returns (declareParameters line parameters) := by
  induction parameters with
  | nil => exact returns_pure _
  | cons p rest ih =>
    refine (returns_declare _ _ _ _ _).bind fun declared => ?_
    split
    · exact (returns_changeTable _).bind fun _ => (returns_changeTable _).bind fun _ => ih
    · exact ih

/-- A routine that is declared again is reported. -/
theorem returns_enterRoutine (routine : DeclaredRoutine) : Returns (enterRoutine routine) := by
  refine (returns_routine? _).bind fun previous => ?_
  split
  · exact (returns_report _ _).bind fun _ => returns_modify _
  · exact returns_modify _

/-- The result of a function is passed over if there is none, or if its name is taken. -/
theorem returns_declareResult (routine : DeclaredRoutine) : Returns (declareResult routine) := by
  unfold declareResult
  split
  · refine (returns_declareSilently _ _ _ _).bind fun declared => ?_
    split
    · exact returns_changeTable _
    · exact returns_pure _
  · exact returns_pure _

/-- A routine is opened with its parameters and its result. -/
theorem returns_openRoutine (routine : DeclaredRoutine) (parameters : List Parameter) :
    Returns (openRoutine routine parameters) :=
  (returns_enterRoutine routine).bind fun _ => (returns_modify _).bind fun _ =>
    (returns_declareParameters _ _).bind fun _ => returns_declareResult routine

/-- A counter may be missing, mean nothing, be a constant or be of another type: all is reported. -/
theorem returns_checkCounter (name : String) (line : Int) : Returns (checkCounter name line) := by
  have hstore : ∀ category : Category, Returns (do
      changeTable (·.markInitialized name)
      if category = .variable then changeTable (·.setCategory name .counter)) := by
    intro category
    refine (returns_changeTable _).bind fun _ => ?_
    split
    · exact returns_changeTable _
    · exact returns_pure _
  unfold checkCounter
  split
  · refine (returns_symbol? name).bind fun symbol => ?_
    cases symbol with
    | none => exact returns_report line _
    | some symbol =>
      dsimp only
      by_cases hconstant : symbol.category = .constant
      · rw [if_pos hconstant]
        exact returns_report line _
      · rw [if_neg hconstant]
        by_cases hinteger : (symbol.ty.same .integer || symbol.ty.isError) = true
        · rw [if_pos hinteger]
          exact hstore _
        · rw [if_neg hinteger]
          exact (returns_report line _).bind fun _ => hstore _
  · exact returns_pure _

/-- What is read into may mean nothing. -/
theorem returns_storeRead (routine name : String) (line : Int) :
    Returns (storeRead routine name line) := by
  have hstore : Returns (do
      checkNotCounter name line
      changeTable (·.markInitialized name)
      changeTable (·.countUse name)) :=
    (returns_checkNotCounter name line).bind fun _ =>
      (returns_changeTable _).bind fun _ => returns_changeTable _
  refine (returns_symbol? name).bind fun symbol => ?_
  split
  · exact returns_report line _
  · split
    · exact (returns_report line _).bind fun _ => hstore
    · exact hstore

/-- A call as a statement is checked or reported, be its routine built in, declared or unknown. -/
theorem returns_checkCall (catalogue : Catalogue) (name : String) (given : Nat) (line : Int) :
    Returns (checkCall catalogue name given line) := by
  unfold checkCall
  cases catalogue.procedure? name with
  | some builtin =>
    dsimp only
    split
    · exact returns_pure _
    · exact returns_report line _
  | none =>
    cases catalogue.function? name with
    | some builtin =>
      dsimp only
      split
      · exact returns_pure _
      · exact returns_report line _
    | none =>
      refine (returns_routine? name).bind fun routine => ?_
      cases routine with
      | some routine =>
        dsimp only
        split
        · exact returns_pure _
        · exact returns_report line _
      | none =>
        refine (returns_symbol? name).bind fun symbol => ?_
        split
        · exact returns_report line _
        · exact returns_report line _

/-- Behind the walk groups of symbols are reported one by one. -/
theorem returns_reportGroups (finding : Symbol → List Symbol → Finding) (groups : List NameGroup) :
    Returns (reportGroups finding groups) := by
  induction groups with
  | nil => exact returns_pure _
  | cons group groups ih =>
    cases hm : group.members.map (·.1) with
    | nil =>
      simp only [reportGroups, hm]
      exact ih
    | cons first more =>
      simp only [reportGroups, hm]
      exact (returns_report _ _).bind fun _ => ih

theorem returns_reportUnused (symbols : List NumberedSymbol) : Returns (reportUnused symbols) := by
  induction symbols with
  | nil => exact returns_pure _
  | cons s rest ih => exact (returns_report _ _).bind fun _ => ih

/-- What is found behind the walk needs no more than the symbols. -/
theorem returns_summarize : Returns summarize :=
  returns_get.bind fun _ => (returns_reportGroups _ _).bind fun _ =>
    (returns_reportGroups _ _).bind fun _ => returns_reportUnused _

/-! ## Declarations and statements -/

section
variable {catalogue : Catalogue} (hc : ∀ f ∈ catalogue.functions, f.isFunction = true)
include hc

theorem returns_constantType {value : Expr} (h : value.hasNamedTypes = true) :
    Returns (constantType catalogue value) := by
  unfold constantType
  split
  · exact returns_pure _
  · exact returns_typeOf hc value h

theorem returns_walkConstSection (declarations : List ConstDeclaration)
    (h : declarations.all (·.value.hasNamedTypes) = true) :
    Returns (walkConstSection catalogue declarations) := by
  induction declarations with
  | nil => exact returns_pure _
  | cons d rest ih =>
    simp only [List.all_cons, Bool.and_eq_true] at h
    refine (returns_constantType hc h.1).bind fun ty => ?_
    refine (returns_declare _ _ _ _ _).bind fun declared => ?_
    split
    · exact (returns_changeTable _).bind fun _ => ih h.2
    · exact ih h.2

/-- An assignment needs the types of its index and value only where its target can be stored into.
-/
theorem returns_walkAssignment (target : String) {value index : Expr} (line : Int)
    (hv : value.hasNamedTypes = true) (hi : index.hasNamedTypes = true) :
    Returns (walkAssignment catalogue target value index line) := by
  refine (returns_symbol? target).bind fun symbol => ?_
  split
  · exact returns_report line _
  · refine (returns_checkNotCounter target line).bind fun _ => ?_
    split
    · exact returns_report line _
    · refine (returns_typeOf hc index hi).bind fun _ =>
        (returns_typeOf hc value hv).bind fun ty => ?_
      have hmark := returns_changeTable (·.markInitialized target)
      split
      · exact hmark
      · split
        · exact (returns_report line _).bind fun _ => hmark
        · exact (returns_report line _).bind fun _ => hmark

theorem returns_checkCondition {condition : Expr} (statement : Conditional) (line : Int)
    (h : condition.hasNamedTypes = true) :
    Returns (checkCondition catalogue condition statement line) := by
  refine (returns_typeOf hc condition h).bind fun ty => ?_
  split
  · exact returns_pure _
  · exact returns_report line _

/-- Either end of a range has a type, even one that is missing. -/
theorem returns_checkBound (which : Bound) {e : Expr} (line : Int) (h : e.hasNamedTypes = true) :
    Returns (checkBound catalogue which e line) := by
  refine (returns_typeOf hc e h).bind fun ty => ?_
  split
  · exact returns_pure _
  · exact returns_report line _

/-- Of what is written, the width and the decimals have types as well. -/
theorem returns_walkWrite (arguments : List WriteArgument)
    (h : arguments.all WriteArgument.hasNamedTypes = true) :
    Returns (walkWrite catalogue arguments) := by
  induction arguments with
  | nil => exact returns_pure _
  | cons a rest ih =>
    simp only [List.all_cons, WriteArgument.hasNamedTypes, Bool.and_eq_true] at h
    obtain ⟨⟨⟨hvalue, hwidth⟩, hdecimals⟩, hrest⟩ := h
    exact (returns_typeOf hc _ hvalue).bind fun _ => (returns_typeOf hc _ hwidth).bind fun _ =>
      (returns_typeOf hc _ hdecimals).bind fun _ => ih hrest

theorem returns_walkIndex (target : Target) (h : target.hasNamedTypes = true) :
    Returns (walkIndex catalogue target) := by
  cases target with
  | name => exact returns_pure _
  | element name index line => exact (returns_typeOf hc index h).bind fun _ => returns_pure _

/-- What is read into is checked with its indices. -/
theorem returns_walkRead (routine : String) (targets : List Target)
    (h : targets.all Target.hasNamedTypes = true) :
    Returns (walkRead catalogue routine targets) := by
  induction targets with
  | nil => exact returns_pure _
  | cons target rest ih =>
    simp only [List.all_cons, Bool.and_eq_true] at h
    exact (returns_walkIndex hc target h.1).bind fun _ =>
      (returns_storeRead _ _ _).bind fun _ => ih h.2

theorem returns_walkCall (name : String) {arguments : List Expr} (line : Int)
    (h : Expr.allHaveNamedTypes arguments = true) :
    Returns (walkCall catalogue name arguments line) :=
  (returns_typesOf hc arguments h).bind fun _ =>
    returns_checkCall catalogue name _ line

end

variable {catalogue : Catalogue}

mutual

/-- **The walk over a tree gives a result from every state**, if the tree can be walked and every
built-in function has a result. -/
theorem returns_walk (hc : ∀ f ∈ catalogue.functions, f.isFunction = true) : ∀ node : Node,
    node.isWalkable = true → Returns (walk catalogue node)
  | .program _ declarations body _, h => by
    simp only [Node.isWalkable, Bool.and_eq_true] at h
    exact (returns_walkAll hc declarations h.1).bind fun _ => returns_walkBody hc body h.2
  | .varSection declarations _, _ => returns_walkVarSection declarations
  | .constSection declarations _, h => returns_walkConstSection hc declarations h
  | .function _ _ _ declarations body _, h | .procedure _ _ declarations body _, h => by
    simp only [Node.isWalkable, Bool.and_eq_true] at h
    exact (returns_openRoutine _ _).bind fun _ => (returns_walkAll hc declarations h.1).bind
      fun _ => (returns_walkBody hc body h.2).bind fun _ => returns_modify _
  | .block statements _, h =>
    (returns_modify _).bind fun _ => (returns_walkAll hc statements h).bind fun _ =>
      returns_modify _
  | .assignment target value index line, h => by
    simp only [Node.isWalkable, Bool.and_eq_true] at h
    exact returns_walkAssignment hc target line h.1 h.2
  | .ifThen condition thenBranch elseBranch line, h => by
    simp only [Node.isWalkable, Bool.and_eq_true] at h
    exact (returns_checkCondition hc _ line h.1.1).bind fun _ =>
      (returns_walk hc thenBranch h.1.2).bind fun _ => returns_walk hc elseBranch h.2
  | .whileDo condition body line, h => by
    simp only [Node.isWalkable, Bool.and_eq_true] at h
    exact (returns_checkCondition hc _ line h.1).bind fun _ => returns_walk hc body h.2
  | .forDo counter start finish _ body line, h => by
    simp only [Node.isWalkable, Bool.and_eq_true] at h
    have hbody : Returns (do walk catalogue body; unprotect (Text.lower counter)) :=
      (returns_walk hc body h.2).bind fun _ => returns_modify _
    refine (returns_checkCounter counter line).bind fun _ =>
      (returns_checkBound hc .start line h.1.1).bind fun _ =>
        (returns_checkBound hc .finish line h.1.2).bind fun _ => ?_
    dsimp only
    split
    · exact (returns_modify _).bind fun _ => hbody
    · exact hbody
  | .repeatUntil statements condition line, h => by
    simp only [Node.isWalkable, Bool.and_eq_true] at h
    exact (returns_walkAll hc statements h.1).bind fun _ => returns_checkCondition hc _ line h.2
  | .write _ arguments _, h => returns_walkWrite hc arguments h
  | .read routine targets _, h => returns_walkRead hc routine targets h
  | .call name arguments line, h => returns_walkCall hc name line h
  | .expression e, h => (returns_typeOf hc e h).bind fun _ => returns_pure _
  | .fragment f, h => by cases h

theorem returns_walkAll (hc : ∀ f ∈ catalogue.functions, f.isFunction = true) :
    ∀ nodes : List Node, Node.allWalkable nodes = true → Returns (walkAll catalogue nodes)
  | [], _ => returns_pure _
  | node :: rest, h => by
    simp only [Node.allWalkable, Bool.and_eq_true] at h
    exact (returns_walk hc node h.1).bind fun _ => returns_walkAll hc rest h.2

theorem returns_walkBody (hc : ∀ f ∈ catalogue.functions, f.isFunction = true) :
    ∀ body : Body, body.isWalkable = true → Returns (walkBody catalogue body)
  | .missing, _ => returns_pure _
  | .block statements _, h => returns_walkAll hc statements h

end

/-- The analysis of a program that can be walked gives a result. -/
theorem run_of_isWalkable (hc : ∀ f ∈ catalogue.functions, f.isFunction = true) {p : Program}
    (h : p.toNode.isWalkable = true) : ∃ state, run catalogue p = .ok state := by
  obtain ⟨_, state, hstate⟩ := ((returns_walk hc p.toNode h).bind fun _ => returns_summarize) {}
  refine ⟨state, ?_⟩
  unfold run program
  rw [hstate]
  rfl

end Analysis
end PascalCheck
