import PascalCheck.Analysis.Expression

/-! Steps of an analysis that give a result from every state.

A walk through an expression stops without a result only at a literal whose type has no name, or at
a built-in function without a result. -/
namespace PascalCheck
namespace Analysis

/-- The step gives a result from every state. -/
def Returns {α : Type} (m : Analysis α) : Prop :=
  ∀ s : AnalysisState, ∃ a s', StateT.run m s = .ok (a, s')

section
variable {α β : Type}

/-- A run of two steps after each other is a run of the first and one of the second. -/
theorem run_bind_eq_ok {m : Analysis α} {f : α → Analysis β} {s s'' : AnalysisState} {b : β} :
    StateT.run (m >>= f) s = .ok (b, s'') ↔
      ∃ a s', StateT.run m s = .ok (a, s') ∧ StateT.run (f a) s' = .ok (b, s'') := by
  rw [StateT.run_bind]
  cases h : StateT.run m s with
  | error fault =>
    constructor
    · intro hb
      cases hb
    · rintro ⟨a, s', hm, -⟩
      cases hm
  | ok p =>
    constructor
    · intro hb
      exact ⟨p.1, p.2, rfl, hb⟩
    · rintro ⟨a, s', hm, hf⟩
      cases hm
      exact hf

theorem returns_pure (a : α) : Returns (pure a) :=
  fun s => ⟨a, s, rfl⟩

/-- Two steps give a result if the first does, and the second whatever comes of the first. -/
theorem Returns.bind {m : Analysis α} {f : α → Analysis β} (hm : Returns m)
    (hf : ∀ a, Returns (f a)) : Returns (m >>= f) := by
  intro s
  obtain ⟨a, s', ha⟩ := hm s
  obtain ⟨b, s'', hb⟩ := hf a s'
  exact ⟨b, s'', run_bind_eq_ok.mpr ⟨a, s', ha, hb⟩⟩

end

/-- A finding can always be reported. -/
theorem returns_report (line : Int) (finding : Finding) : Returns (report line finding) :=
  fun _ => ⟨(), _, rfl⟩

theorem returns_reject (line : Int) (finding : Finding) : Returns (reject line finding) :=
  (returns_report line finding).bind fun _ => returns_pure _

/-- Any change of the table succeeds. -/
theorem returns_changeTable (change : ScopeTable → ScopeTable) : Returns (changeTable change) :=
  fun _ => ⟨(), _, rfl⟩

/-- A name can be looked up, whether it means something or not. -/
theorem returns_symbol? (name : String) : Returns (symbol? name) :=
  fun s => ⟨s.table.find? name, s, rfl⟩

theorem returns_routine? (name : String) : Returns (routine? name) :=
  fun s => ⟨s.routines.find? (·.key == Text.lower name), s, rfl⟩

section
variable {catalogue : Catalogue}

/-- A call comes to a built-in function, which has a result, to a routine, or is reported. -/
theorem returns_callType (hc : ∀ f ∈ catalogue.functions, f.isFunction = true) (name : String)
    (tys : List Ty) (line : Int) : Returns (callType catalogue name tys line) := by
  unfold callType
  cases hf : catalogue.function? name with
  | some f =>
    dsimp only
    split
    · -- A function without a result would stop the walk here.
      obtain ⟨rule, hr⟩ := Option.isSome_iff_exists.mp (hc f (List.mem_of_find?_eq_some hf))
      simp only [BuiltinRoutine.resultType?, hr, Option.map_some]
      exact returns_pure _
    · exact returns_reject line _
  | none =>
    refine (returns_routine? name).bind fun r => ?_
    split
    · split
      · split
        · exact returns_pure _
        · exact (returns_report line _).bind fun _ => returns_pure _
      · exact returns_reject line _
    · split
      · exact returns_reject line _
      · refine (returns_symbol? name).bind fun symbol => ?_
        split
        · exact returns_reject line _
        · exact returns_reject line _

/-- A name may be a variable, or call a function. -/
theorem returns_nameType (hc : ∀ f ∈ catalogue.functions, f.isFunction = true) (name : String)
    (line : Int) : Returns (nameType catalogue name line) := by
  have huse : ∀ ty : Ty, Returns (do changeTable (·.countUse name); return ty) :=
    fun ty => (returns_changeTable _).bind fun _ => returns_pure ty
  refine (returns_symbol? name).bind fun symbol => ?_
  split
  · split
    · exact huse _
    · exact (returns_report line _).bind fun _ => huse _
  · refine ((returns_routine? name).bind fun r => returns_pure _).bind fun known => ?_
    split
    · exact returns_callType hc name [] line
    · exact returns_reject line _

theorem returns_elementType (name : String) (line : Int) : Returns (elementType name line) := by
  refine (returns_symbol? name).bind fun symbol => ?_
  split
  · exact (returns_changeTable _).bind fun _ => returns_pure _
  · exact returns_reject line _

/-- Operands that do not fit are reported, and have the type of an error. -/
theorem returns_binaryType (op : String) (l r : Ty) (line : Int) :
    Returns (binaryType op l r line) := by
  unfold binaryType
  split
  · exact returns_pure _
  · exact returns_reject line _

theorem returns_unaryType (op : String) (operand : Ty) (line : Int) :
    Returns (unaryType op operand line) := by
  unfold unaryType
  split
  · exact returns_pure _
  · split
    · split
      · exact returns_pure _
      · exact returns_reject line _
    · split
      · exact returns_pure _
      · exact returns_reject line _

end

end Analysis

namespace Expr

mutual

/-- The types of the literals in an expression have names. -/
def hasNamedTypes : Expr → Bool
  | literal _ typeName _ => (Ty.ofName? typeName).isSome
  | call _ arguments _ => allHaveNamedTypes arguments
  | element _ index _ => hasNamedTypes index
  | binary _ left right _ => hasNamedTypes left && hasNamedTypes right
  | unary _ operand _ => hasNamedTypes operand
  | absent | identifier _ _ | placeholder _ _ => true

/-- The types of the literals in all of the expressions have names. -/
def allHaveNamedTypes : List Expr → Bool
  | [] => true
  | e :: rest => hasNamedTypes e && allHaveNamedTypes rest

end

end Expr

namespace Analysis
variable {catalogue : Catalogue}

mutual

/-- **An expression is given a type from every state**, if the types of its literals have names and
every built-in function has a result. -/
theorem returns_typeOf (hc : ∀ f ∈ catalogue.functions, f.isFunction = true) : ∀ e : Expr,
    e.hasNamedTypes = true → Returns (typeOf catalogue e)
  | .absent, _ | .placeholder .., _ => returns_pure _
  | .literal _ typeName _, h => by
    obtain ⟨ty, hty⟩ := Option.isSome_iff_exists.mp h
    simp only [typeOf, literalType, hty]
    exact returns_pure ty
  | .identifier name line, _ => returns_nameType hc name line
  | .call name arguments line, h =>
    (returns_typesOf hc arguments h).bind fun tys => returns_callType hc name tys line
  | .element name index line, h =>
    (returns_typeOf hc index h).bind fun _ => returns_elementType name line
  | .binary op left right line, h => by
    simp only [Expr.hasNamedTypes, Bool.and_eq_true] at h
    exact (returns_typeOf hc left h.1).bind fun l =>
      (returns_typeOf hc right h.2).bind fun r => returns_binaryType op l r line
  | .unary op operand line, h =>
    (returns_typeOf hc operand h).bind fun t => returns_unaryType op t line

theorem returns_typesOf (hc : ∀ f ∈ catalogue.functions, f.isFunction = true) :
    ∀ es : List Expr, Expr.allHaveNamedTypes es = true → Returns (typesOf catalogue es)
  | [], _ => returns_pure _
  | e :: es, h => by
    simp only [Expr.allHaveNamedTypes, Bool.and_eq_true] at h
    exact (returns_typeOf hc e h.1).bind fun ty =>
      (returns_typesOf hc es h.2).bind fun tys => returns_pure (ty :: tys)

end

end Analysis
end PascalCheck
