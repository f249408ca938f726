import PascalCheck.Proofs.LetterCase.State

/-! # The walk does not see the case of names -/
namespace PascalCheck

namespace Catalogue
variable (catalogue : Catalogue)

/-- Built-in routines are looked up in lower case. -/
@[simp] theorem function?_toLower (name : String) :
    catalogue.function? name.toLower = catalogue.function? name := by
  simp [function?]

@[simp] theorem procedure?_toLower (name : String) :
    catalogue.procedure? name.toLower = catalogue.procedure? name := by
  simp [procedure?]

end Catalogue

namespace Expr

@[simp] theorem length_foldAllNames (es : List Expr) : (foldAllNames es).length = es.length := by
  induction es with
  | nil => rfl
  | cons e rest ih => simp [ih]

end Expr

namespace Analysis
variable {catalogue : Catalogue}

/-! ## Expressions -/

/-- An error is reported with its names in lower case; its type is the error. -/
theorem foldsTo_reject (line : Int) {finding folded : Finding} (h : folded = finding.foldNames) :
    FoldsTo id (reject line finding) (reject line folded) :=
  (foldsTo_report line h).bind fun _ => .pure rfl

/-- A call in an expression comes to the same routine, and to the same type. -/
theorem foldsTo_callType (name : String) (arguments : List Ty) (line : Int) :
    FoldsTo id (callType catalogue name arguments line)
      (callType catalogue name.toLower arguments line) := by
  unfold callType
  dsimp only
  rw [Catalogue.function?_toLower, Catalogue.procedure?_toLower]
  cases catalogue.function? name with
  | some builtin =>
    refine .ite ?_ (foldsTo_reject line rfl)
    cases builtin.resultType? arguments with
    | some ty => exact .pure rfl
    | none => exact .throw _
  | none =>
    refine (foldsTo_routine? name).bind fun routine => ?_
    cases routine with
    | some routine =>
      obtain ⟨spelling, result, parameters, place⟩ := routine
      cases result with
      | some ty =>
        dsimp only [Option.map_some, DeclaredRoutine.foldName]
        exact .ite (.pure rfl) ((foldsTo_report line rfl).bind fun _ => .pure rfl)
      | none => exact foldsTo_reject line rfl
    | none =>
      refine .ite (foldsTo_reject line rfl) ?_
      refine (foldsTo_symbol? name).bind fun symbol => ?_
      cases symbol with
      | some symbol => exact foldsTo_reject line rfl
      | none => exact foldsTo_reject line rfl

/-- Whether a name is one of a routine does not depend on its case. -/
theorem foldsTo_isRoutine (name : String) :
    FoldsTo id (isRoutine catalogue name) (isRoutine catalogue name.toLower) := by
  unfold isRoutine
  rw [Catalogue.function?_toLower, Catalogue.procedure?_toLower]
  refine (foldsTo_routine? name).bind fun routine => .pure ?_
  cases routine <;> rfl

/-- A name in an expression means the same, and is used and missed alike. -/
theorem foldsTo_nameType (name : String) (line : Int) :
    FoldsTo id (nameType catalogue name line) (nameType catalogue name.toLower line) := by
  refine (foldsTo_symbol? name).bind fun symbol => ?_
  cases symbol with
  | some symbol =>
    have huse : FoldsTo id (do changeTable (·.countUse name); return symbol.ty)
        (do changeTable (·.countUse name.toLower); return symbol.ty) :=
      (foldsTo_changeTable fun table => table.countUse_foldNames name).bind fun _ => .pure rfl
    dsimp only [Option.map_some, Symbol.foldName]
    exact .ite huse ((foldsTo_report line rfl).bind fun _ => huse)
  | none =>
    refine (foldsTo_isRoutine name).bind fun isRoutine => ?_
    exact .ite (foldsTo_callType name [] line) (foldsTo_reject line rfl)

/-- So does the name of an array. -/
theorem foldsTo_elementType (name : String) (line : Int) :
    FoldsTo id (elementType name line) (elementType name.toLower line) := by
  refine (foldsTo_symbol? name).bind fun symbol => ?_
  cases symbol with
  | some symbol =>
    exact (foldsTo_changeTable fun table => table.countUse_foldNames name).bind fun _ => .pure rfl
  | none => exact foldsTo_reject line rfl

/-- Operators have no names; only the types of their operands count. -/
theorem foldsTo_binaryType (op : String) (left right : Ty) (line : Int) :
    FoldsTo id (binaryType op left right line) (binaryType op left right line) := by
  unfold binaryType
  split
  · exact .pure rfl
  · exact foldsTo_reject line rfl

theorem foldsTo_unaryType (op : String) (operand : Ty) (line : Int) :
    FoldsTo id (unaryType op operand line) (unaryType op operand line) :=
  .ite (.pure rfl) (.ite (.ite (.pure rfl) (foldsTo_reject line rfl))
    (.ite (.pure rfl) (foldsTo_reject line rfl)))

mutual

/-- **The type of an expression does not depend on the case of names.** -/
theorem foldsTo_typeOf : ∀ e : Expr,
    FoldsTo id (typeOf catalogue e) (typeOf catalogue e.foldNames)
  | .absent | .placeholder .. => .pure rfl
  | .literal _ typeName _ => by
    show FoldsTo id (literalType typeName) (literalType typeName)
    unfold literalType
    split
    · exact .pure rfl
    · exact .throw _
  | .identifier name line => foldsTo_nameType name line
  | .call name arguments line =>
    (foldsTo_typesOf arguments).bind fun types => foldsTo_callType name types line
  | .element name index line =>
    (foldsTo_typeOf index).bind fun _ => foldsTo_elementType name line
  | .binary op left right line =>
    (foldsTo_typeOf left).bind fun l => (foldsTo_typeOf right).bind fun r =>
      foldsTo_binaryType op l r line
  | .unary op operand line =>
    (foldsTo_typeOf operand).bind fun t => foldsTo_unaryType op t line

theorem foldsTo_typesOf : ∀ es : List Expr,
    FoldsTo id (typesOf catalogue es) (typesOf catalogue (Expr.foldAllNames es))
  | [] => .pure rfl
  | e :: rest =>
    (foldsTo_typeOf e).bind fun _ => (foldsTo_typesOf rest).bind fun _ => .pure rfl

end

/-! ## Declarations -/

/-- The variables of a declaration are declared one after the other. -/
theorem foldsTo_declareVariables (ty : Ty) (names : List DeclaredName) :
    FoldsTo id (declareVariables ty names)
      (declareVariables ty (names.map DeclaredName.foldNames)) := by
  induction names with
  | nil => exact .pure rfl
  | cons d rest ih => exact (foldsTo_declare .variable d.name ty d.line .variable).bind fun _ => ih

theorem foldsTo_walkVarSection (declarations : List VarDeclaration) :
    FoldsTo id (walkVarSection declarations)
      (walkVarSection (declarations.map VarDeclaration.foldNames)) := by
  induction declarations with
  | nil => exact .pure rfl
  | cons d rest ih => exact (foldsTo_declareVariables _ d.names).bind fun _ => ih

/-- A constant without a value is an integer in either case. -/
theorem foldsTo_constantType (value : Expr) :
    FoldsTo id (constantType catalogue value) (constantType catalogue value.foldNames) := by
  cases value with
  | absent => exact .pure rfl
  | _ => exact foldsTo_typeOf _

/-- A constant has the type of its value, whatever the case of the names in there. -/
theorem foldsTo_walkConstSection (declarations : List ConstDeclaration) :
    FoldsTo id (walkConstSection catalogue declarations)
      (walkConstSection catalogue (declarations.map ConstDeclaration.foldNames)) := by
  induction declarations with
  | nil => exact .pure rfl
  | cons d rest ih =>
    refine (foldsTo_constantType d.value).bind fun ty =>
      (foldsTo_declare .constant d.name ty d.line .constant).bind fun declared => ?_
    dsimp only [id]
    exact .ite ((foldsTo_changeTable fun table => table.markInitialized_foldNames d.name).bind
      fun _ => ih) ih

/-- Parameters are declared one after the other, as having a value and being used. -/
theorem foldsTo_declareParameters (line : Int) (parameters : List Parameter) :
    FoldsTo id (declareParameters line parameters)
      (declareParameters line (parameters.map Parameter.foldNames)) := by
  induction parameters with
  | nil => exact .pure rfl
  | cons p rest ih =>
    refine (foldsTo_declare .parameter p.name _ _ .variable).bind fun declared => ?_
    dsimp only [id]
    exact .ite ((foldsTo_changeTable fun table => table.markInitialized_foldNames p.name).bind
      fun _ => (foldsTo_changeTable fun table => table.countUse_foldNames p.name).bind
      fun _ => ih) ih

/-- A routine is declared under its name; one that is there already is reported. -/
theorem foldsTo_enterRoutine (routine : DeclaredRoutine) :
    FoldsTo id (enterRoutine routine) (enterRoutine routine.foldName) := by
  refine (foldsTo_routine? routine.name).bind fun previous => ?_
  cases previous with
  | none => exact foldsTo_addRoutine routine
  | some previous => exact (foldsTo_report _ rfl).bind fun _ => foldsTo_addRoutine routine

theorem foldsTo_declareResult (routine : DeclaredRoutine) :
    FoldsTo id (declareResult routine) (declareResult routine.foldName) := by
  obtain ⟨name, result, parameters, line⟩ := routine
  cases result with
  | none => exact .pure rfl
  | some ty =>
    refine (foldsTo_declareSilently name ty line .result).bind fun declared => ?_
    exact .ite (foldsTo_changeTable fun table => table.markInitialized_foldNames name) (.pure rfl)

/-- The scope of a routine has its name in lower case. -/
theorem foldsTo_openRoutine (routine : DeclaredRoutine) (parameters : List Parameter) :
    FoldsTo id (openRoutine routine parameters)
      (openRoutine routine.foldName (parameters.map Parameter.foldNames)) := by
  unfold openRoutine
  rw [DeclaredRoutine.key_foldName]
  exact (foldsTo_enterRoutine routine).bind fun _ => (foldsTo_openScope _).bind fun _ =>
    (foldsTo_declareParameters _ parameters).bind fun _ => foldsTo_declareResult routine

/-! ## Statements -/

/-- An assignment is given up at its target, or checked with its index and value, alike. -/
theorem foldsTo_walkAssignment (target : String) (value index : Expr) (line : Int) :
    FoldsTo id (walkAssignment catalogue target value index line)
      (walkAssignment catalogue target.toLower value.foldNames index.foldNames line) := by
  refine (foldsTo_symbol? target).bind fun symbol => ?_
  cases symbol with
  | none => exact foldsTo_report line rfl
  | some symbol =>
    have hmark : FoldsTo id (changeTable (·.markInitialized target))
        (changeTable (·.markInitialized target.toLower)) :=
      foldsTo_changeTable fun table => table.markInitialized_foldNames target
    refine (foldsTo_checkNotCounter target line).bind fun _ => ?_
    refine .ite (foldsTo_report line rfl) ?_
    refine (foldsTo_typeOf index).bind fun _ => (foldsTo_typeOf value).bind fun ty => ?_
    exact .ite hmark (.ite ((foldsTo_report line rfl).bind fun _ => hmark)
      ((foldsTo_report line rfl).bind fun _ => hmark))

theorem foldsTo_checkCondition (condition : Expr) (statement : Conditional) (line : Int) :
    FoldsTo id (checkCondition catalogue condition statement line)
      (checkCondition catalogue condition.foldNames statement line) :=
  (foldsTo_typeOf condition).bind fun _ => .ite (.pure rfl) (foldsTo_report line rfl)

/-- The counter of a loop is looked up, refused or stored into alike. -/
theorem foldsTo_checkCounter (name : String) (line : Int) :
    FoldsTo id (checkCounter name line) (checkCounter name.toLower line) := by
  have hstore : ∀ category : Category, FoldsTo id
      (do changeTable (·.markInitialized name)
          if category = .variable then changeTable (·.setCategory name .counter))
      (do changeTable (·.markInitialized name.toLower)
          if category = .variable then changeTable (·.setCategory name.toLower .counter)) := by
    intro category
    refine (foldsTo_changeTable fun table => table.markInitialized_foldNames name).bind fun _ => ?_
    exact .ite (foldsTo_changeTable fun table => table.setCategory_foldNames name .counter)
      (.pure rfl)
  unfold checkCounter
  simp only [ne_eq, Text.toLower_eq_empty]
  refine .ite ?_ (.pure rfl)
  refine (foldsTo_symbol? name).bind fun symbol => ?_
  cases symbol with
  | none => exact foldsTo_report line rfl
  | some symbol =>
    exact .ite (foldsTo_report line rfl)
      (.ite (hstore symbol.category) ((foldsTo_report line rfl).bind fun _ =>
        hstore symbol.category))

theorem foldsTo_checkBound (which : Bound) (e : Expr) (line : Int) :
    FoldsTo id (checkBound catalogue which e line) (checkBound catalogue which e.foldNames line) :=
  (foldsTo_typeOf e).bind fun _ => .ite (.pure rfl) (foldsTo_report line rfl)

theorem foldsTo_walkWrite (arguments : List WriteArgument) :
    FoldsTo id (walkWrite catalogue arguments)
      (walkWrite catalogue (arguments.map WriteArgument.foldNames)) := by
  induction arguments with
  | nil => exact .pure rfl
  | cons a rest ih =>
    exact (foldsTo_typeOf a.value).bind fun _ => (foldsTo_typeOf a.width).bind fun _ =>
      (foldsTo_typeOf a.decimals).bind fun _ => ih

theorem foldsTo_walkIndex (target : Target) :
    FoldsTo id (walkIndex catalogue target) (walkIndex catalogue target.foldNames) := by
  cases target with
  | name => exact .pure rfl
  | element name index line => exact (foldsTo_typeOf index).bind fun _ => .pure rfl

/-- So is what is read into. -/
theorem foldsTo_storeRead (routine name : String) (line : Int) :
    FoldsTo id (storeRead routine name line) (storeRead routine name.toLower line) := by
  have hstore : FoldsTo id
      (do checkNotCounter name line
          changeTable (·.markInitialized name)
          changeTable (·.countUse name))
      (do checkNotCounter name.toLower line
          changeTable (·.markInitialized name.toLower)
          changeTable (·.countUse name.toLower)) :=
    (foldsTo_checkNotCounter name line).bind fun _ =>
      (foldsTo_changeTable fun table => table.markInitialized_foldNames name).bind fun _ =>
        foldsTo_changeTable fun table => table.countUse_foldNames name
  refine (foldsTo_symbol? name).bind fun symbol => ?_
  cases symbol with
  | none => exact foldsTo_report line rfl
  | some symbol => exact .ite ((foldsTo_report line rfl).bind fun _ => hstore) hstore

theorem foldsTo_walkRead (routine : String) (targets : List Target) :
    FoldsTo id (walkRead catalogue routine targets)
      (walkRead catalogue routine (targets.map Target.foldNames)) := by
  induction targets with
  | nil => exact .pure rfl
  | cons target rest ih =>
    refine (foldsTo_walkIndex target).bind fun _ => ?_
    cases target with
    | name name line => exact (foldsTo_storeRead routine name line).bind fun _ => ih
    | element name index line => exact (foldsTo_storeRead routine name line).bind fun _ => ih

/-- A call as a statement comes to the same routine. -/
theorem foldsTo_checkCall (name : String) (given : Nat) (line : Int) :
    FoldsTo id (checkCall catalogue name given line)
      (checkCall catalogue name.toLower given line) := by
  unfold checkCall
  rw [Catalogue.function?_toLower, Catalogue.procedure?_toLower]
  cases catalogue.procedure? name with
  | some builtin => exact .ite (.pure rfl) (foldsTo_report line rfl)
  | none =>
    cases catalogue.function? name with
    | some builtin => exact .ite (.pure rfl) (foldsTo_report line rfl)
    | none =>
      refine (foldsTo_routine? name).bind fun routine => ?_
      cases routine with
      | some routine => exact .ite (.pure rfl) (foldsTo_report line rfl)
      | none =>
        refine (foldsTo_symbol? name).bind fun symbol => ?_
        cases symbol with
        | some symbol => exact foldsTo_report line rfl
        | none => exact foldsTo_report line rfl

theorem foldsTo_walkCall (name : String) (arguments : List Expr) (line : Int) :
    FoldsTo id (walkCall catalogue name arguments line)
      (walkCall catalogue name.toLower (Expr.foldAllNames arguments) line) := by
  unfold walkCall
  rw [Expr.length_foldAllNames]
  exact (foldsTo_typesOf arguments).bind fun _ => foldsTo_checkCall name _ line

mutual

/-- **The walk over a tree does not depend on the case of names.** -/
theorem foldsTo_walk : ∀ node : Node,
    FoldsTo id (walk catalogue node) (walk catalogue node.foldNames)
  | .program _ declarations body _ =>
    (foldsTo_walkAll declarations).bind fun _ => foldsTo_walkBody body
  | .varSection declarations _ => foldsTo_walkVarSection declarations
  | .constSection declarations _ => foldsTo_walkConstSection declarations
  | .function name parameters result declarations body line => by
    rw [Node.foldNames, walk, walk, List.length_map]
    exact (foldsTo_openRoutine _ parameters).bind fun _ => (foldsTo_walkAll declarations).bind
      fun _ => (foldsTo_walkBody body).bind fun _ => foldsTo_closeScope
  | .procedure name parameters declarations body line => by
    rw [Node.foldNames, walk, walk, List.length_map]
    exact (foldsTo_openRoutine _ parameters).bind fun _ => (foldsTo_walkAll declarations).bind
      fun _ => (foldsTo_walkBody body).bind fun _ => foldsTo_closeScope
  | .block statements line =>
    (foldsTo_openScope _).bind fun _ => (foldsTo_walkAll statements).bind fun _ =>
      foldsTo_closeScope
  | .assignment target value index line => foldsTo_walkAssignment target value index line
  | .ifThen condition thenBranch elseBranch line =>
    (foldsTo_checkCondition condition .ifThen line).bind fun _ =>
      (foldsTo_walk thenBranch).bind fun _ => foldsTo_walk elseBranch
  | .whileDo condition body line =>
    (foldsTo_checkCondition condition .whileDo line).bind fun _ => foldsTo_walk body
  | .forDo counter start finish _ body line => by
    rw [Node.foldNames, walk, walk, Text.lower_toLower]
    have hbody : FoldsTo id (do walk catalogue body; unprotect (Text.lower counter))
        (do walk catalogue body.foldNames; unprotect (Text.lower counter)) :=
      (foldsTo_walk body).bind fun _ => foldsTo_unprotect _
    exact (foldsTo_checkCounter counter line).bind fun _ =>
      (foldsTo_checkBound .start start line).bind fun _ =>
        (foldsTo_checkBound .finish finish line).bind fun _ =>
          .ite ((foldsTo_protect _).bind fun _ => hbody) hbody
  | .repeatUntil statements condition line =>
    (foldsTo_walkAll statements).bind fun _ => foldsTo_checkCondition condition .repeatUntil line
  | .write _ arguments _ => foldsTo_walkWrite arguments
  | .read routine targets _ => foldsTo_walkRead routine targets
  | .call name arguments line => foldsTo_walkCall name arguments line
  | .expression e => (foldsTo_typeOf e).bind fun _ => .pure rfl
  | .fragment f => by
    cases f <;> exact .throw _

/-- Declarations or statements are walked one after the other. -/
theorem foldsTo_walkAll : ∀ nodes : List Node,
    FoldsTo id (walkAll catalogue nodes) (walkAll catalogue (Node.foldAllNames nodes))
  | [] => .pure rfl
  | node :: rest => (foldsTo_walk node).bind fun _ => foldsTo_walkAll rest

theorem foldsTo_walkBody : ∀ body : Body,
    FoldsTo id (walkBody catalogue body) (walkBody catalogue body.foldNames)
  | .missing => .pure rfl
  | .block statements _ => foldsTo_walkAll statements

end

end Analysis
end PascalCheck
