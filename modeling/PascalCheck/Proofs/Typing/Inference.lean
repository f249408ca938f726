import PascalCheck.Proofs.Typing.Infers

/-! The walk that finds the types of expressions finds those that the rules give: each part of it
finds a further error exactly where the rule for the expression gives no type. -/
namespace PascalCheck
namespace Analysis
variable {s : AnalysisState} {catalogue : Catalogue}

/-- **A call has the type that its rule gives.** -/
theorem infers_callType (name : String) (tys : List Ty) (line : Int) :
    Infers (callType catalogue name tys line) s
      (CallHasType catalogue s.environment name tys) := by
  unfold callType
  cases hf : catalogue.function? name with
  | some f =>
    refine Infers.congr ?_ fun ty => (callHasType_builtin_iff hf).symm
    dsimp only
    split
    next ha =>
      have hcount : f.minimum ≤ tys.length ∧ tys.length ≤ f.maximum := by
        simpa [BuiltinRoutine.accepts] using ha
      cases hr : f.resultType? tys with
      | none => exact (Infers.throw _).congr fun ty => by simp
      | some result => exact (Infers.pure _).congr fun ty => by simp [hcount, eq_comm]
    next ha =>
      have hcount : ¬ (f.minimum ≤ tys.length ∧ tys.length ≤ f.maximum) := by
        simpa [BuiltinRoutine.accepts] using ha
      exact (infers_reject line rfl).congr fun ty => iff_of_false id fun h => hcount h.1
  | none =>
    refine Infers.congr ?_ fun ty => (callHasType_routine_iff hf).symm
    refine infers_routine? ?_
    cases hr : s.environment.routine? name with
    | none =>
      -- The name is unknown, whatever is said of it: each of the findings is an error.
      have hno : ∀ ty, False ↔ ∃ r : DeclaredRoutine, none = some r ∧ r.result = some ty ∧
          tys.length = r.parameters := by simp
      dsimp only
      split
      · exact (infers_reject line rfl).congr hno
      · refine infers_symbol? ?_
        split
        · exact (infers_reject line rfl).congr hno
        · exact (infers_reject line rfl).congr hno
    | some r =>
      dsimp only
      cases ht : r.result with
      | none => exact (infers_reject line rfl).congr fun ty => by simp [ht]
      | some result =>
        dsimp only
        split
        next hn => exact (Infers.pure _).congr fun ty => by simp [ht, hn, eq_comm]
        next hn =>
          have hno : ∀ ty, False ↔ ∃ r', some r = some r' ∧ r'.result = some ty ∧
              tys.length = r'.parameters := by simp [hn]
          exact (infers_error_then line rfl result).congr hno

/-- A name that means no symbol is a call without arguments. -/
theorem infers_nameType (name : String) (line : Int) :
    Infers (nameType catalogue name line) s
      (HasType catalogue s.environment true (.identifier name line)) := by
  have htype : s.environment.type? name = (s.table.find? name).map (·.ty) := rfl
  refine infers_symbol? ?_
  cases hs : s.table.find? name with
  | some symbol =>
    have hty : ∀ ty, ty = symbol.ty ↔
        HasType catalogue s.environment true (.identifier name line) ty := by
      intro ty
      constructor
      · rintro rfl
        exact .symbol (by simp [htype, hs])
      · intro h
        cases h with
        | symbol h => simpa [htype, hs, eq_comm] using h
        | nameCall h => simp [htype, hs] at h
    have hrest : ∀ s', Infers (do changeTable (·.countUse name); return symbol.ty) s'
        (· = symbol.ty) := fun s' =>
      ((infers_countUse name).bind fun _ _ _ _ => Infers.pure symbol.ty).congr fun ty => by simp
    refine Infers.congr ?_ hty
    dsimp only
    split
    · exact hrest s
    · -- A use before an assignment is a warning, which is no error.
      refine ((infers_warning line rfl).bind fun _ s' _ _ => hrest s').congr fun ty => ?_
      simp
  | none =>
    have hcall : ∀ ty, CallHasType catalogue s.environment name [] ty ↔
        HasType catalogue s.environment true (.identifier name line) ty := by
      intro ty
      constructor
      · exact fun h => .nameCall (by simp [htype, hs]) h
      · intro h
        cases h with
        | symbol h => simp [htype, hs] at h
        | nameCall _ h => exact h
    refine Infers.congr ?_ hcall
    refine Infers.of_run_eq (show _ = StateT.run (if (catalogue.function? name).isSome ||
      (catalogue.procedure? name).isSome || (s.environment.routine? name).isSome then
        callType catalogue name [] line else reject line (.undeclared name)) s from rfl) ?_
    split
    · exact infers_callType name [] line
    next hroutine =>
      have hnone : catalogue.function? name = none ∧ s.environment.routine? name = none := by
        simp_all
      refine (infers_reject line rfl).congr fun ty => ?_
      rw [callHasType_routine_iff hnone.1]
      simp [hnone.2]

theorem infers_elementType (name : String) (line : Int) :
    Infers (elementType name line) s fun ty => s.environment.type? name = some ty := by
  have htype : s.environment.type? name = (s.table.find? name).map (·.ty) := rfl
  refine infers_symbol? ?_
  cases hs : s.table.find? name with
  | some symbol =>
    refine ((infers_countUse name).bind fun _ _ _ _ => Infers.pure symbol.ty).congr fun ty => ?_
    simp [htype, hs, eq_comm]
  | none => exact (infers_reject line rfl).congr fun ty => by simp [htype, hs]

theorem infers_literalType {typeName : String} {ty : Ty} (h : (typeName, ty) ∈ scalars) :
    Infers (literalType typeName) s fun t => (typeName, t) ∈ scalars := by
  unfold literalType
  rw [ofName?_of_mem_scalars h]
  refine (Infers.pure ty).congr fun t => ?_
  constructor
  · rintro rfl
    exact h
  · intro ht
    have hsame := (ofName?_of_mem_scalars ht).symm.trans (ofName?_of_mem_scalars h)
    exact Option.some.inj hsame

/-- An operation has the type in the table, or propagates an error. -/
theorem infers_binaryType (op : Operator) (l r : Ty) (line : Int) :
    Infers (binaryType op.text l r line) s fun ty =>
      op.tableType? l r = some ty ∨ (l = .error ∨ r = .error) ∧ ty = .error := by
  unfold binaryType Ty.binary?
  by_cases he : l = .error ∨ r = .error
  · -- An operand of the type of errors makes the table of no account.
    rw [if_pos (by simpa [Ty.isError_iff] using he)]
    refine (Infers.pure _).congr fun ty => ?_
    constructor
    · exact fun h => .inr ⟨he, h⟩
    · rintro (h | ⟨-, h⟩)
      · obtain ⟨hl, hr, -⟩ := Operator.ne_error_of_tableType? h
        exact (he.elim hl hr).elim
      · exact h
  · rw [if_neg (by simpa [Ty.isError_iff] using he)]
    simp only [Operator.ofText?_text, Option.bind_some, Operator.result?_eq_tableType?, he,
      false_and, or_false]
    cases op.tableType? l r with
    | none => exact (infers_reject line rfl).congr fun ty => by simp
    | some result => exact (Infers.pure _).congr fun ty => by simp [eq_comm]

/-- Types that are not errors are compared by name. -/
theorem same_eq_true_iff {t ty : Ty} (hname : ty.name ≠ "error") :
    t.same ty = true ↔ t.name = ty.name := by
  have hname' := hname.symm
  cases t <;> cases ty <;> simp_all [Ty.same, Ty.name]

theorem infers_unaryType {op : String} (hop : op = "not" ∨ op = "-") (operand : Ty) (line : Int) :
    Infers (unaryType op operand line) s fun ty =>
      op = "not" ∧ operand.name = "boolean" ∧ ty = .boolean ∨
      op = "-" ∧ (operand.name = "integer" ∨ operand.name = "real") ∧ ty = operand ∨
      operand = .error ∧ ty = .error := by
  have hboolean : operand.same .boolean = true ↔ operand.name = "boolean" :=
    same_eq_true_iff (by decide)
  have hnumeric : operand.isNumeric = true ↔ operand.name = "integer" ∨ operand.name = "real" := by
    rw [Ty.isNumeric, Bool.or_eq_true, same_eq_true_iff (by decide), same_eq_true_iff (by decide)]
    rfl
  unfold unaryType
  by_cases he : operand = .error
  · subst he
    exact (Infers.pure _).congr fun ty => by simp [Ty.name]
  · rw [if_neg (mt Ty.isError_iff.mp he)]
    simp only [he, false_and, or_false]
    obtain rfl | rfl := hop
    · rw [if_pos rfl]
      split
      next hb => exact (Infers.pure _).congr fun ty => by simp [hboolean.mp hb]
      next hb => exact (infers_reject line rfl).congr fun ty => by simp [mt hboolean.mpr hb]
    · rw [if_neg (by decide)]
      split
      next hn => exact (Infers.pure _).congr fun ty => by simp [hnumeric.mp hn]
      next hn => exact (infers_reject line rfl).congr fun ty => by simp [mt hnumeric.mpr hn]

mutual

/-- **The walk finds the type that the rules give, in their propagating form.** -/
theorem infers_typeOf : ∀ (e : Expr), e.isPlain = true → ∀ s : AnalysisState,
    Infers (typeOf catalogue e) s (HasType catalogue s.environment true e)
  | .literal value typeName line, h, s => by
    obtain ⟨⟨name, ty⟩, hmem, hname⟩ := List.any_eq_true.mp h
    obtain rfl : name = typeName := of_decide_eq_true hname
    refine (infers_literalType hmem).congr fun t => ?_
    constructor
    · exact .literal
    · intro ht
      cases ht with
      | literal ht => exact ht
  | .identifier name line, _, s => infers_nameType name line
  | .call name arguments line, h, s => by
    have hcall : ∀ tys (s' : AnalysisState), s'.environment = s.environment →
        Infers (callType catalogue name tys line) s'
          (CallHasType catalogue s.environment name tys) :=
      fun tys s' henv => henv ▸ infers_callType name tys line
    refine ((infers_typesOf arguments h s).bind fun tys s' _ => hcall tys s').congr fun ty => ?_
    constructor
    · rintro ⟨tys, ha, hc⟩
      exact .call ha hc
    · intro ht
      cases ht with
      | call ha hc => exact ⟨_, ha, hc⟩
  | .element name index line, h, s => by
    have helement : ∀ s' : AnalysisState, s'.environment = s.environment →
        Infers (elementType name line) s' fun ty => s.environment.type? name = some ty :=
      fun s' henv => henv ▸ infers_elementType name line
    refine ((infers_typeOf index h s).bind fun _ s' _ => helement s').congr fun ty => ?_
    constructor
    · rintro ⟨i, hi, hty⟩
      exact .element hi hty
    · intro ht
      cases ht with
      | element hi hty => exact ⟨_, hi, hty⟩
  | .binary op left right line, h, s => by
    simp only [Expr.isPlain, Bool.and_eq_true] at h
    obtain ⟨⟨hop, hleft⟩, hright⟩ := h
    obtain ⟨op, rfl⟩ := Operator.exists_text_eq hop
    have hr : ∀ s' : AnalysisState, s'.environment = s.environment →
        Infers (typeOf catalogue right) s' (HasType catalogue s.environment true right) :=
      fun s' henv => henv ▸ infers_typeOf right hright s'
    refine ((infers_typeOf left hleft s).bind fun l s' _ henv =>
      (hr s' henv).bind fun r _ _ _ => infers_binaryType op l r line).congr fun ty => ?_
    constructor
    · rintro ⟨l, hl, r, hr, ht | ⟨he, rfl⟩⟩
      · exact .operation hl hr ht
      · exact .faultyOperation rfl hl hr he
    · intro ht
      -- The rules speak of the spelling, from which the operator has to be recovered.
      generalize htext : op.text = text at ht
      cases ht with
      | @operation op' _ _ _ l r _ hl hr ht =>
        cases Operator.text_injective htext
        exact ⟨l, hl, r, hr, .inl ht⟩
      | @faultyOperation op' _ _ _ l r _ hl hr he => exact ⟨l, hl, r, hr, .inr ⟨he, rfl⟩⟩
  | .unary op operand line, h, s => by
    simp only [Expr.isPlain, Bool.and_eq_true, Bool.or_eq_true, decide_eq_true_eq] at h
    obtain ⟨hop, hplain⟩ := h
    refine ((infers_typeOf operand hplain s).bind fun u _ _ _ =>
      infers_unaryType hop u line).congr fun ty => ?_
    constructor
    · rintro ⟨u, hu, ⟨rfl, hb, rfl⟩ | ⟨rfl, hn, rfl⟩ | ⟨rfl, rfl⟩⟩
      · exact .not hu hb
      · exact .negation hu hn
      · exact .faultyOperand rfl hop hu
    · intro ht
      cases ht with
      | not hu hb => exact ⟨_, hu, .inl ⟨rfl, hb, rfl⟩⟩
      | negation hu hn => exact ⟨_, hu, .inr (.inl ⟨rfl, hn, rfl⟩)⟩
      | faultyOperand _ _ hu => exact ⟨_, hu, .inr (.inr ⟨rfl, rfl⟩)⟩

theorem infers_typesOf : ∀ (es : List Expr), Expr.allPlain es = true → ∀ s : AnalysisState,
    Infers (typesOf catalogue es) s (HaveTypes catalogue s.environment true es)
  | [], _, s => by
    refine (Infers.pure []).congr fun tys => ?_
    constructor
    · rintro rfl
      exact .nil
    · intro ht
      cases ht
      rfl
  | e :: es, h, s => by
    simp only [Expr.allPlain, Bool.and_eq_true] at h
    have hes : ∀ s' : AnalysisState, s'.environment = s.environment →
        Infers (typesOf catalogue es) s' (HaveTypes catalogue s.environment true es) :=
      fun s' henv => henv ▸ infers_typesOf es h.2 s'
    refine ((infers_typeOf e h.1 s).bind fun ty s' _ henv =>
      (hes s' henv).bind fun tys _ _ _ => Infers.pure (ty :: tys)).congr fun tys => ?_
    constructor
    · rintro ⟨ty, hty, tys, htys, rfl⟩
      exact .cons hty htys
    · intro ht
      cases ht with
      | cons hty htys => exact ⟨_, hty, _, htys, rfl⟩

end

end Analysis

namespace Expr

mutual

theorem hasNamedTypes_of_isPlain : ∀ e : Expr, e.isPlain = true → e.hasNamedTypes = true
  | literal _ typeName _, h => by
    obtain ⟨⟨name, ty⟩, hmem, hname⟩ := List.any_eq_true.mp h
    obtain rfl : name = typeName := of_decide_eq_true hname
    simp [hasNamedTypes, ofName?_of_mem_scalars hmem]
  | identifier .., _ => rfl
  | call _ arguments _, h => allHaveNamedTypes_of_allPlain arguments h
  | element _ index _, h => hasNamedTypes_of_isPlain index h
  | binary _ left right _, h => by
    simp only [isPlain, Bool.and_eq_true] at h
    rw [hasNamedTypes, hasNamedTypes_of_isPlain left h.1.2, hasNamedTypes_of_isPlain right h.2]
    rfl
  | unary _ operand _, h => by
    simp only [isPlain, Bool.and_eq_true] at h
    exact hasNamedTypes_of_isPlain operand h.2

theorem allHaveNamedTypes_of_allPlain : ∀ es : List Expr, allPlain es = true →
    allHaveNamedTypes es = true
  | [], _ => rfl
  | e :: es, h => by
    simp only [allPlain, Bool.and_eq_true] at h
    rw [allHaveNamedTypes, hasNamedTypes_of_isPlain e h.1, allHaveNamedTypes_of_allPlain es h.2]
    rfl

end

end Expr

namespace Analysis

/-- **The walk is sound and complete for the rules.**  From every state, it gives a plain expression
a type without finding an error exactly if the rules give it the type: in the form that propagates
errors, and where no name means an error, in the form that knows none.  An expression to which the
rules give no type is given one with a further error, where every built-in function has a result. -/
theorem typeOf_iff_hasType (catalogue : Catalogue) (s : AnalysisState) {e : Expr}
    (h : e.isPlain = true) :
    (∀ ty, (∃ s', StateT.run (typeOf catalogue e) s = .ok (ty, s') ∧ s'.errors = s.errors) ↔
      HasType catalogue s.environment true e ty) ∧
    (HasNoError catalogue s.environment → ∀ ty,
      (∃ s', StateT.run (typeOf catalogue e) s = .ok (ty, s') ∧ s'.errors = s.errors) ↔
        HasType catalogue s.environment false e ty) ∧
    ((∀ f ∈ catalogue.functions, f.isFunction = true) →
      (¬ ∃ ty, HasType catalogue s.environment true e ty) →
        ∃ ty s' found, StateT.run (typeOf catalogue e) s = .ok (ty, s') ∧
          s'.errors = s.errors ++ found ∧ found ≠ []) := by
  have hinfers : Infers (typeOf catalogue e) s (HasType catalogue s.environment true e) :=
    infers_typeOf e h s
  refine ⟨hinfers.gives, ?_, ?_⟩
  · exact fun hno ty => (hinfers.gives ty).trans (hasType_propagating_iff hno)
  · intro hc hnone
    obtain ⟨ty, s', hrun⟩ := returns_typeOf hc e (e.hasNamedTypes_of_isPlain h) s
    obtain ⟨found, hfound⟩ := (hinfers.keeps ty s' hrun).2
    refine ⟨ty, s', found, hrun, hfound.symm, ?_⟩
    rintro rfl
    rw [List.append_nil] at hfound
    exact hnone ⟨ty, (hinfers.gives ty).mp ⟨s', hrun, hfound.symm⟩⟩

/-- A state in which `x` is an integer. -/
def stateWithX : AnalysisState :=
  { table := { symbols := #[⟨"x", .integer, "global", 1, .variable, true, 0⟩]
               outermost := ⟨"global", [("x", 0)]⟩ } }

/-- The square root of `x / 2` is a real. -/
theorem typeOf_iff_hasType_root :
    let catalogue : Catalogue := ⟨[⟨"sqrt", 1, 1, some (.fixed .real)⟩], []⟩
    let root : Expr := .call "sqrt"
      [.binary "/" (.identifier "x" 1) (.literal "2" "integer" 1) 1] 1
    root.isPlain = true ∧ HasNoError catalogue stateWithX.environment ∧
      HasType catalogue stateWithX.environment false root .real ∧
      ∃ s', StateT.run (typeOf catalogue root) stateWithX = .ok (.real, s') ∧
        s'.errors = stateWithX.errors := by
  intro catalogue root
  have hplain : root.isPlain = true := by decide
  have hno : HasNoError catalogue stateWithX.environment :=
    hasNoError_of_recorded (by decide) (by decide) (by decide)
  have hx : HasType catalogue stateWithX.environment false (.identifier "x" 1) .integer :=
    .symbol rfl
  have htwo : HasType catalogue stateWithX.environment false (.literal "2" "integer" 1) .integer :=
    .literal (by decide)
  have hquotient : HasType catalogue stateWithX.environment false
      (.binary Operator.divide.text (.identifier "x" 1) (.literal "2" "integer" 1) 1) .real :=
    .operation hx htwo rfl
  have hsqrt : catalogue.function? "sqrt" = some ⟨"sqrt", 1, 1, some (.fixed .real)⟩ := rfl
  have hroot : HasType catalogue stateWithX.environment false root .real :=
    .call (.cons hquotient .nil) (.fixed hsqrt rfl (by decide) (by decide))
  exact ⟨hplain, hno, hroot,
    ((typeOf_iff_hasType catalogue stateWithX hplain).2.1 hno .real).mpr hroot⟩

end Analysis
end PascalCheck
