import PascalCheck.Proofs.Recovery.Quiet

/-! # What each step does with the type of errors

A step that finds a type gives the type of errors, without finding an error, only where one of the
types it starts from is that type, or a name means something of it; a step that declares a name
keeps to the faulty names if the declared type does. -/
namespace PascalCheck

/-! ## Types -/

namespace Ty

/-- An operation has the type of errors only if an operand has. -/
theorem binary?_eq_error {op : String} {l r : Ty} (h : binary? op l r = some .error) :
    l = .error ∨ r = .error := by
  unfold binary? at h
  split at h
  next herror => exact (Bool.or_eq_true_iff.mp herror).imp isError_iff.mp isError_iff.mp
  next =>
    obtain ⟨operator, -, hresult⟩ := Option.bind_eq_some_iff.mp h
    rw [Operator.result?_eq_tableType?] at hresult
    exact absurd rfl (Operator.ne_error_of_tableType? hresult).2.2

end Ty

namespace BuiltinRoutine

/-- A built-in function has the type of errors only from its first argument, unless its table says
that it yields this type. -/
theorem resultType?_eq_error {builtin : BuiltinRoutine} {types : List Ty}
    (hb : builtin.result ≠ some (.fixed .error)) (h : builtin.resultType? types = some .error) :
    types.headD .integer = .error := by
  obtain ⟨rule, hrule, htype⟩ := Option.map_eq_some_iff.mp h
  cases rule with
  | sameAsFirst => exact htype
  | fixed ty =>
    obtain rfl : ty = .error := htype
    exact absurd hrule hb

end BuiltinRoutine

/-- No built-in function yields the type of errors of itself. -/
def Catalogue.YieldsNoError (catalogue : Catalogue) : Prop :=
  ∀ f ∈ catalogue.functions, f.result ≠ some (.fixed .error)

namespace Analysis

variable {faulty : String → Prop} {c : Prop} {catalogue : Catalogue}

/-! ## Types of expressions -/

/-- A literal has the type that its type name means, and this is not the type of errors. -/
theorem quietly_literalType {typeName : String} {ty : Ty} (h : Ty.ofName? typeName = some ty)
    (hty : ty ≠ .error) : Quietly faulty c (literalType typeName) (· ≠ .error) := by
  simp only [literalType, h]
  exact .pure fun _ => hty

/-- A rejected expression is an error that is found, so that the run is not quiet there. -/
theorem quietly_reject (line : Int) {finding : Finding} (h : finding.severity = .error)
    (P : Ty → Prop) : Quietly faulty c (reject line finding) P :=
  quietly_error line h .error P

/-- A call has the type of errors from the name that is called, or from the first argument. -/
theorem quietly_callType (hc : catalogue.YieldsNoError)
    (name : String) (types : List Ty) (line : Int) :
    Quietly faulty c (callType catalogue name types line) fun ty =>
      ty = .error → faulty (Text.lower name) ∨ types.headD .integer = .error := by
  unfold callType
  cases hf : catalogue.function? name with
  | some builtin =>
    refine .ite ?_ (quietly_reject line rfl _)
    cases hr : builtin.resultType? types with
    | some ty =>
      refine .pure fun _ herror => .inr ?_
      exact BuiltinRoutine.resultType?_eq_error (hc builtin (List.mem_of_find?_eq_some hf))
        (herror ▸ hr)
    | none => exact .throw _
  | none =>
    refine (quietly_routine? name).bind fun found => ?_
    cases found with
    | some routine =>
      dsimp only
      cases hresult : routine.result with
      | some ty =>
        have hty : ∀ {c' : Prop}, (c' → ∀ r, some routine = some r → r.result = some .error →
            faulty (Text.lower name)) → Quietly faulty c' (pure ty) fun ty =>
              ty = .error → faulty (Text.lower name) ∨ types.headD .integer = .error :=
          fun hfound => .pure fun hc' herror =>
            .inl (hfound hc' routine rfl (herror ▸ hresult))
        exact .ite (hty fun h => h.2)
          ((quietly_report line _).bind fun _ => hty fun h => h.1.2)
      | none => exact quietly_reject line rfl _
    | none =>
      refine .ite (quietly_reject line rfl _) ?_
      exact (quietly_symbol? name).bind fun symbol =>
        .ite (quietly_reject line rfl _) (quietly_reject line rfl _)

theorem quietly_isRoutine (name : String) :
    Quietly faulty c (isRoutine catalogue name) anything :=
  (quietly_routine? name).bind fun _ => .pure fun _ => trivial

/-- A name has the type of errors only if it is a faulty one. -/
theorem quietly_nameType (hc : catalogue.YieldsNoError)
    (name : String) (line : Int) :
    Quietly faulty c (nameType catalogue name line) fun ty =>
      ty = .error → faulty (Text.lower name) := by
  refine (quietly_symbol? name).bind fun found => ?_
  cases found with
  | some symbol =>
    have huse : ∀ {c' : Prop}, (c' → symbol.ty = .error → faulty (Text.lower name)) →
        Quietly faulty c' (do changeTable (·.countUse name); return symbol.ty) fun ty =>
          ty = .error → faulty (Text.lower name) :=
      fun hfound => (quietly_countUse name).bind fun _ => .pure fun h => hfound h.1
    exact .ite (huse fun h => h.2 symbol rfl)
      ((quietly_report line _).bind fun _ => huse fun h => h.1.2 symbol rfl)
  | none =>
    refine (quietly_isRoutine name).bind fun _ => .ite ?_ (quietly_reject line rfl _)
    refine (quietly_callType hc name [] line).weaken id fun ty _ h herror => ?_
    exact (h herror).resolve_right nofun

/-- An element has the type of errors only if its array is a faulty name. -/
theorem quietly_elementType (name : String) (line : Int) :
    Quietly faulty c (elementType name line) fun ty => ty = .error → faulty (Text.lower name) := by
  refine (quietly_symbol? name).bind fun found => ?_
  cases found with
  | some symbol =>
    exact (quietly_countUse name).bind fun _ => .pure fun h => h.1.2 symbol rfl
  | none => exact quietly_reject line rfl _

/-- An operation takes the type of errors over from an operand and from nowhere else. -/
theorem quietly_binaryType (op : String) (l r : Ty) (line : Int) :
    Quietly faulty c (binaryType op l r line) fun ty => ty = .error → l = .error ∨ r = .error := by
  unfold binaryType
  cases ht : Ty.binary? op l r with
  | some ty => exact .pure fun _ herror => Ty.binary?_eq_error (herror ▸ ht)
  | none => exact quietly_reject line rfl _

theorem quietly_unaryType (op : String) (operand : Ty) (line : Int) :
    Quietly faulty c (unaryType op operand line) fun ty => ty = .error → operand = .error := by
  unfold unaryType
  split
  next herror => exact .pure fun _ _ => Ty.isError_iff.mp herror
  next =>
    refine .ite (.ite ?_ (quietly_reject line rfl _)) (.ite ?_ (quietly_reject line rfl _))
    · exact .pure fun _ h => nomatch h
    · exact .pure fun _ h => h

/-! ## Declarations -/

/-- A declaration leaves the table faulty at no further name, if the declared type is the type of
errors only for a faulty name. -/
theorem quietly_declareSilently {name : String} {ty : Ty} (line : Int) (category : Category)
    (h : c → ty = .error → faulty (Text.lower name)) :
    Quietly faulty c (declareSilently name ty line category) anything := by
  intro s a s' hrun
  unfold declareSilently at hrun
  obtain ⟨_, _, hget, hrest⟩ := run_bind_eq_ok.mp hrun
  cases hget
  dsimp only at hrest
  split at hrest
  next table htable =>
    cases hrest
    refine ⟨List.prefix_refl _, fun _ hc hs => ⟨⟨?_, hs.routines⟩, trivial⟩⟩
    exact hs.table.declare? htable (h hc)
  next =>
    cases hrest
    exact ⟨List.prefix_refl _, fun _ _ hs => ⟨⟨hs.table, hs.routines⟩, trivial⟩⟩

theorem quietly_get {α : Type} {f : AnalysisState → Analysis α} {P : α → Prop}
    (h : ∀ s, Quietly faulty c (f s) P) : Quietly faulty c (get >>= f) P :=
  fun s => h s s

theorem quietly_declare (what : Declared) {name : String} {ty : Ty} (line : Int)
    (category : Category) (h : c → ty = .error → faulty (Text.lower name)) :
    Quietly faulty c (declare what name ty line category) anything := by
  refine (quietly_declareSilently line category h).bind fun declared => ?_
  cases declared with
  | true => exact .pure fun _ => trivial
  | false =>
    refine quietly_get fun s => ?_
    dsimp only
    cases s.table.findCurrent? name with
    | some existing => exact (quietly_report line _).bind fun _ => .pure fun _ => trivial
    | none => exact .pure fun _ => trivial

/-- The variables of a declaration share its type, so that each of them has to be faulty if the type
is that of errors. -/
theorem quietly_declareVariables {ty : Ty} {names : List DeclaredName}
    (h : ∀ n ∈ names, ty = .error → faulty (Text.lower n.name)) :
    Quietly faulty c (declareVariables ty names) anything := by
  induction names generalizing c with
  | nil => exact .pure fun _ => trivial
  | cons n rest ih =>
    obtain ⟨hn, hrest⟩ := List.forall_mem_cons.mp h
    exact (quietly_declare _ _ _ fun _ => hn).bind fun _ => ih hrest

/-- A parameter is declared with the type that its own type name means. -/
theorem quietly_declareParameters (line : Int) {parameters : List Parameter}
    (h : ∀ p ∈ parameters, Ty.resolve p.typeSpec.name = .error → faulty (Text.lower p.name)) :
    Quietly faulty c (declareParameters line parameters) anything := by
  induction parameters generalizing c with
  | nil => exact .pure fun _ => trivial
  | cons p rest ih =>
    obtain ⟨hp, hrest⟩ := List.forall_mem_cons.mp h
    refine (quietly_declare _ _ _ fun _ => hp).bind fun declared => .ite ?_ (ih hrest)
    exact (quietly_markInitialized p.name).bind fun _ =>
      (quietly_countUse p.name).bind fun _ => ih hrest

/-- A routine with a faulty result has a faulty name; the routines of before stay. -/
theorem quietly_enterRoutine {routine : DeclaredRoutine}
    (h : routine.result = some .error → faulty routine.key) :
    Quietly faulty c (enterRoutine routine) anything := by
  have hadd : ∀ {c' : Prop}, Quietly faulty c' (addRoutine routine) anything := by
    intro c'
    refine .modify (fun _ => rfl) fun s _ hs => ⟨hs.table, fun r hr => ?_⟩
    rcases DeclaredRoutine.mem_of_mem_insert hr with rfl | hold
    · exact h
    · exact hs.routines r hold
  refine (quietly_routine? routine.name).bind fun previous => ?_
  cases previous with
  | some previous => exact (quietly_report _ _).bind fun _ => hadd
  | none => exact hadd

/-- The variable of the result is as faulty as the routine. -/
theorem quietly_declareResult {routine : DeclaredRoutine}
    (h : routine.result = some .error → faulty routine.key) :
    Quietly faulty c (declareResult routine) anything := by
  unfold declareResult
  cases hresult : routine.result with
  | some ty =>
    have hty : ty = .error → faulty (Text.lower routine.name) :=
      fun herror => h (herror ▸ hresult)
    refine (quietly_declareSilently _ _ fun _ => hty).bind fun declared => .ite ?_ ?_
    · exact quietly_markInitialized routine.name
    · exact .pure fun _ => trivial
  | none => exact .pure fun _ => trivial

theorem quietly_openScope (name : String) : Quietly faulty c (openScope name) anything :=
  .modify (fun _ => rfl) fun _ _ hs => ⟨hs.table.push name, hs.routines⟩

theorem quietly_closeScope : Quietly faulty c closeScope anything :=
  .modify (fun _ => rfl) fun _ _ hs => ⟨hs.table.pop, hs.routines⟩

/-- Opening a routine enters it, then its scope, its parameters and its result. -/
theorem quietly_openRoutine {routine : DeclaredRoutine} {parameters : List Parameter}
    (h : routine.result = some .error → faulty routine.key)
    (hp : ∀ p ∈ parameters, Ty.resolve p.typeSpec.name = .error → faulty (Text.lower p.name)) :
    Quietly faulty c (openRoutine routine parameters) anything :=
  (quietly_enterRoutine h).bind fun _ => (quietly_openScope _).bind fun _ =>
    (quietly_declareParameters _ hp).bind fun _ => quietly_declareResult h

/-! ## Statements -/

theorem quietly_protect (key : String) : Quietly faulty c (protect key) anything :=
  .modify (fun _ => rfl) fun _ _ hs => ⟨hs.table, hs.routines⟩

theorem quietly_unprotect (key : String) : Quietly faulty c (unprotect key) anything :=
  .modify (fun _ => rfl) fun _ _ hs => ⟨hs.table, hs.routines⟩

theorem quietly_checkNotCounter (name : String) (line : Int) :
    Quietly faulty c (checkNotCounter name line) anything :=
  quietly_get fun _ => .ite (quietly_report line _) (.pure fun _ => trivial)

/-- The check of a counter stores no type. -/
theorem quietly_checkCounter (name : String) (line : Int) :
    Quietly faulty c (checkCounter name line) anything := by
  have hstore : ∀ {c' : Prop} (category : Category), Quietly faulty c' (do
      changeTable (·.markInitialized name)
      if category = .variable then changeTable (·.setCategory name .counter)) anything :=
    fun category => (quietly_markInitialized name).bind fun _ =>
      .ite (quietly_setCategory name .counter) (.pure fun _ => trivial)
  unfold checkCounter
  refine .ite ?_ (.pure fun _ => trivial)
  refine (quietly_symbol? name).bind fun found => ?_
  cases found with
  | none => exact quietly_report line _
  | some symbol =>
    refine .ite (quietly_report line _) (.ite (hstore _) ?_)
    exact (quietly_report line _).bind fun _ => hstore _

theorem quietly_storeRead (routine name : String) (line : Int) :
    Quietly faulty c (storeRead routine name line) anything := by
  have hstore : ∀ {c' : Prop}, Quietly faulty c' (do
      checkNotCounter name line
      changeTable (·.markInitialized name)
      changeTable (·.countUse name)) anything :=
    (quietly_checkNotCounter name line).bind fun _ =>
      (quietly_markInitialized name).bind fun _ => quietly_countUse name
  refine (quietly_symbol? name).bind fun found => ?_
  cases found with
  | none => exact quietly_report line _
  | some symbol => exact .ite ((quietly_report line _).bind fun _ => hstore) hstore

/-- Reports about ambiguities change no meaning of a name. -/
theorem quietly_reportGroups (finding : Symbol → List Symbol → Finding) (groups : List NameGroup) :
    Quietly faulty c (reportGroups finding groups) anything := by
  induction groups generalizing c with
  | nil => exact .pure fun _ => trivial
  | cons group groups ih =>
    cases hm : group.members.map (·.1) with
    | nil =>
      simp only [reportGroups, hm]
      exact ih
    | cons first more =>
      simp only [reportGroups, hm]
      exact (quietly_report _ _).bind fun _ => ih

theorem quietly_reportUnused (symbols : List NumberedSymbol) :
    Quietly faulty c (reportUnused symbols) anything := by
  induction symbols generalizing c with
  | nil => exact .pure fun _ => trivial
  | cons s rest ih => exact (quietly_report _ _).bind fun _ => ih

theorem quietly_summarize : Quietly faulty c summarize anything :=
  quietly_get fun _ => (quietly_reportGroups _ _).bind fun _ =>
    (quietly_reportGroups _ _).bind fun _ => quietly_reportUnused _

end Analysis
end PascalCheck
