import PascalCheck.Analysis.State
import PascalCheck.Proofs.Typing.Operation
import PascalCheck.Tree.Basic

/-! The rules by which expressions have types.

They are read off what names mean (`Environment`) and the built-in routines, and know nothing of the
walk that finds types, of what it reports or of what it records of symbols.  A name may stand for
something of the type of errors, which has been reported where it was declared; in their propagating
form the rules give that type to the operations on it, and without it both forms agree
(`HasType.strict`). -/
namespace PascalCheck

/-- What the names of a program mean: the types of symbols, and the routines it declares. -/
structure Environment where
  type? : String → Option Ty
  routine? : String → Option DeclaredRoutine

/-- What names mean in a state. -/
def AnalysisState.environment (s : AnalysisState) : Environment :=
  ⟨fun name => (s.table.find? name).map (·.ty),
    fun name => s.routines.find? (·.key == Text.lower name)⟩

/-- The types of literals and their names. -/
def scalars : List (String × Ty) :=
  [("integer", .integer), ("real", .real), ("boolean", .boolean), ("char", .char),
   ("string", .string)]

theorem ofName?_of_mem_scalars {typeName : String} {ty : Ty} (h : (typeName, ty) ∈ scalars) :
    Ty.ofName? typeName = some ty := by
  simp only [scalars, List.mem_cons, Prod.mk.injEq, List.not_mem_nil, or_false] at h
  rcases h with ⟨rfl, rfl⟩ | ⟨rfl, rfl⟩ | ⟨rfl, rfl⟩ | ⟨rfl, rfl⟩ | ⟨rfl, rfl⟩ <;> rfl

namespace Expr

mutual

/-- Nothing of the expression is missing, its operators are those of the language, and its literals
are of types that literals can have. -/
def isPlain : Expr → Bool
  | literal _ typeName _ => scalars.any (·.1 = typeName)
  | identifier _ _ => true
  | call _ arguments _ => allPlain arguments
  | element _ index _ => isPlain index
  | binary op left right _ => isOperator op && isPlain left && isPlain right
  | unary op operand _ => (op = "not" || op = "-") && isPlain operand
  | absent | placeholder _ _ => false

def allPlain : List Expr → Bool
  | [] => true
  | e :: rest => isPlain e && allPlain rest

end

end Expr

section
variable (catalogue : Catalogue) (Γ : Environment)

/-- The type of a call.  Built-in functions come before the routines of the program. -/
inductive CallHasType (name : String) (arguments : List Ty) : Ty → Prop where
  | sameAsFirst {f : BuiltinRoutine} (hf : catalogue.function? name = some f)
      (hr : f.result = some .sameAsFirst) (hmin : f.minimum ≤ arguments.length)
      (hmax : arguments.length ≤ f.maximum) :
      CallHasType name arguments (arguments.headD .integer)
  | fixed {f : BuiltinRoutine} {ty : Ty} (hf : catalogue.function? name = some f)
      (hr : f.result = some (.fixed ty)) (hmin : f.minimum ≤ arguments.length)
      (hmax : arguments.length ≤ f.maximum) : CallHasType name arguments ty
  | routine {r : DeclaredRoutine} {ty : Ty} (hf : catalogue.function? name = none)
      (hr : Γ.routine? name = some r) (ht : r.result = some ty)
      (hn : arguments.length = r.parameters) : CallHasType name arguments ty

variable (propagating : Bool)

mutual

/-- The expression has the type.  Types are told apart by their names. -/
inductive HasType : Expr → Ty → Prop where
  | literal {value typeName : String} {line : Int} {ty : Ty} (h : (typeName, ty) ∈ scalars) :
      HasType (.literal value typeName line) ty
  | symbol {name : String} {line : Int} {ty : Ty} (h : Γ.type? name = some ty) :
      HasType (.identifier name line) ty
  | nameCall {name : String} {line : Int} {ty : Ty} (h : Γ.type? name = none)
      (hc : CallHasType catalogue Γ name [] ty) : HasType (.identifier name line) ty
  | element {name : String} {index : Expr} {line : Int} {i ty : Ty} (hi : HasType index i)
      (h : Γ.type? name = some ty) : HasType (.element name index line) ty
  | call {name : String} {arguments : List Expr} {line : Int} {tys : List Ty} {ty : Ty}
      (ha : HaveTypes arguments tys) (hc : CallHasType catalogue Γ name tys ty) :
      HasType (.call name arguments line) ty
  | operation {op : Operator} {left right : Expr} {line : Int} {l r ty : Ty}
      (hl : HasType left l) (hr : HasType right r) (ht : op.tableType? l r = some ty) :
      HasType (.binary op.text left right line) ty
  | not {operand : Expr} {line : Int} {ty : Ty} (h : HasType operand ty)
      (hb : ty.name = "boolean") : HasType (.unary "not" operand line) .boolean
  | negation {operand : Expr} {line : Int} {ty : Ty} (h : HasType operand ty)
      (hn : ty.name = "integer" ∨ ty.name = "real") : HasType (.unary "-" operand line) ty
  | faultyOperation {op : Operator} {left right : Expr} {line : Int} {l r : Ty}
      (hp : propagating = true) (hl : HasType left l) (hr : HasType right r)
      (he : l = .error ∨ r = .error) : HasType (.binary op.text left right line) .error
  | faultyOperand {op : String} {operand : Expr} {line : Int} (hp : propagating = true)
      (hop : op = "not" ∨ op = "-") (h : HasType operand .error) :
      HasType (.unary op operand line) .error

/-- The expressions have the types, in order. -/
inductive HaveTypes : List Expr → List Ty → Prop where
  | nil : HaveTypes [] []
  | cons {e : Expr} {es : List Expr} {ty : Ty} {tys : List Ty} (h : HasType e ty)
      (hs : HaveTypes es tys) : HaveTypes (e :: es) (ty :: tys)

end

/-- No name means something of the type of errors. -/
structure HasNoError : Prop where
  symbols : ∀ name, Γ.type? name ≠ some .error
  routines : ∀ name r, Γ.routine? name = some r → r.result ≠ some .error
  functions : ∀ name f, catalogue.function? name = some f → f.result ≠ some (.fixed .error)

end

section
variable {catalogue : Catalogue} {Γ : Environment}

/-- A call of a built-in function has the type of its result, if the count of arguments fits. -/
theorem callHasType_builtin_iff {name : String} {tys : List Ty} {ty : Ty} {f : BuiltinRoutine}
    (hf : catalogue.function? name = some f) :
    CallHasType catalogue Γ name tys ty ↔
      (f.minimum ≤ tys.length ∧ tys.length ≤ f.maximum) ∧ f.resultType? tys = some ty := by
  constructor
  · intro h
    cases h with
    | sameAsFirst hf' hr hmin hmax =>
      cases hf.symm.trans hf'
      exact ⟨⟨hmin, hmax⟩, by simp [BuiltinRoutine.resultType?, hr, ResultRule.type]⟩
    | fixed hf' hr hmin hmax =>
      cases hf.symm.trans hf'
      exact ⟨⟨hmin, hmax⟩, by simp [BuiltinRoutine.resultType?, hr, ResultRule.type]⟩
    | routine hf' hr ht hn => cases hf.symm.trans hf'
  · rintro ⟨⟨hmin, hmax⟩, h⟩
    obtain ⟨rule, hr, rfl⟩ := Option.map_eq_some_iff.mp h
    cases rule with
    | sameAsFirst => exact .sameAsFirst hf hr hmin hmax
    | fixed ty => exact .fixed hf hr hmin hmax

/-- A call of no built-in function has the type of the result of a declared function, if the count
of arguments is that of the parameters. -/
theorem callHasType_routine_iff {name : String} {tys : List Ty} {ty : Ty}
    (hf : catalogue.function? name = none) :
    CallHasType catalogue Γ name tys ty ↔
      ∃ r, Γ.routine? name = some r ∧ r.result = some ty ∧ tys.length = r.parameters := by
  constructor
  · intro h
    cases h with
    | sameAsFirst hf' hr hmin hmax => cases hf.symm.trans hf'
    | fixed hf' hr hmin hmax => cases hf.symm.trans hf'
    | routine hf' hr ht hn => exact ⟨_, hr, ht, hn⟩
  · rintro ⟨r, hr, ht, hn⟩
    exact .routine hf hr ht hn

theorem CallHasType.ne_error (hno : HasNoError catalogue Γ) {name : String} {tys : List Ty}
    {ty : Ty} (h : CallHasType catalogue Γ name tys ty) (htys : ∀ t ∈ tys, t ≠ .error) :
    ty ≠ .error := by
  cases h with
  | sameAsFirst hf hr hmin hmax =>
    cases tys with
    | nil => exact Ty.noConfusion
    | cons first rest => exact htys first (by simp)
  | fixed hf hr hmin hmax =>
    rintro rfl
    exact hno.functions _ _ hf hr
  | routine hf hr ht hn =>
    rintro rfl
    exact hno.routines _ _ hr ht

theorem ScopeTable.mem_of_find? {table : ScopeTable} {name : String} {symbol : Symbol}
    (h : table.find? name = some symbol) : symbol ∈ table.symbols := by
  obtain ⟨number, -, hnumber⟩ := Option.bind_eq_some_iff.mp h
  exact Array.mem_of_getElem? hnumber

/-- No name means an error if nothing that is recorded is of that type. -/
theorem hasNoError_of_recorded {s : AnalysisState}
    (hsymbols : ∀ symbol ∈ s.table.symbols, symbol.ty ≠ .error)
    (hroutines : ∀ r ∈ s.routines, r.result ≠ some .error)
    (hfunctions : ∀ f ∈ catalogue.functions, f.result ≠ some (.fixed .error)) :
    HasNoError catalogue s.environment := by
  constructor
  · intro name h
    obtain ⟨symbol, hfind, hty⟩ := Option.map_eq_some_iff.mp h
    exact hsymbols symbol (ScopeTable.mem_of_find? hfind) hty
  · exact fun name r hr => hroutines r (List.mem_of_find?_eq_some hr)
  · exact fun name f hf => hfunctions f (List.mem_of_find?_eq_some hf)

mutual

theorem HasType.propagate : ∀ (e : Expr) {ty : Ty}, HasType catalogue Γ false e ty →
    HasType catalogue Γ true e ty
  | .literal .., _, h => by
    cases h with
    | literal h => exact .literal h
  | .identifier .., _, h => by
    cases h with
    | symbol h => exact .symbol h
    | nameCall h hc => exact .nameCall h hc
  | .call _ arguments _, _, h => by
    cases h with
    | call ha hc => exact .call (HaveTypes.propagate arguments ha) hc
  | .element _ index _, _, h => by
    cases h with
    | element hi h => exact .element (HasType.propagate index hi) h
  | .binary _ left right _, _, h => by
    cases h with
    | operation hl hr ht =>
      exact .operation (HasType.propagate left hl) (HasType.propagate right hr) ht
    | faultyOperation hp => cases hp
  | .unary _ operand _, _, h => by
    cases h with
    | not h hb => exact .not (HasType.propagate operand h) hb
    | negation h hn => exact .negation (HasType.propagate operand h) hn
    | faultyOperand hp => cases hp
  | .absent, _, h | .placeholder .., _, h => nomatch h

theorem HaveTypes.propagate : ∀ (es : List Expr) {tys : List Ty},
    HaveTypes catalogue Γ false es tys → HaveTypes catalogue Γ true es tys
  | [], _, h => by
    cases h
    exact .nil
  | e :: es, _, h => by
    cases h with
    | cons h hs => exact .cons (HasType.propagate e h) (HaveTypes.propagate es hs)

end

mutual

/-- Where no name means an error, no expression has the type of errors, and nothing propagates. -/
theorem HasType.strict (hno : HasNoError catalogue Γ) : ∀ (e : Expr) {ty : Ty},
    HasType catalogue Γ true e ty → ty ≠ .error ∧ HasType catalogue Γ false e ty
  | .literal .., _, h => by
    cases h with
    | literal h =>
      refine ⟨?_, .literal h⟩
      rintro rfl
      simp [scalars] at h
  | .identifier .., _, h => by
    cases h with
    | symbol h =>
      refine ⟨?_, .symbol h⟩
      rintro rfl
      exact hno.symbols _ h
    | nameCall h hc => exact ⟨hc.ne_error hno (by simp), .nameCall h hc⟩
  | .call _ arguments _, _, h => by
    cases h with
    | call ha hc =>
      obtain ⟨htys, ha⟩ := HaveTypes.strict hno arguments ha
      exact ⟨hc.ne_error hno htys, .call ha hc⟩
  | .element _ index _, _, h => by
    cases h with
    | element hi h =>
      refine ⟨?_, .element (HasType.strict hno index hi).2 h⟩
      rintro rfl
      exact hno.symbols _ h
  | .binary _ left right _, _, h => by
    cases h with
    | operation hl hr ht =>
      exact ⟨(Operator.ne_error_of_tableType? ht).2.2,
        .operation (HasType.strict hno left hl).2 (HasType.strict hno right hr).2 ht⟩
    | faultyOperation _ hl hr he =>
      -- Nothing has the type of errors, so there is nothing to propagate.
      have hl := (HasType.strict hno left hl).1
      have hr := (HasType.strict hno right hr).1
      exact (he.elim hl hr).elim
  | .unary _ operand _, _, h => by
    cases h with
    | not h hb => exact ⟨Ty.noConfusion, .not (HasType.strict hno operand h).2 hb⟩
    | negation h hn =>
      obtain ⟨hty, h⟩ := HasType.strict hno operand h
      exact ⟨hty, .negation h hn⟩
    | faultyOperand _ _ h => exact absurd rfl (HasType.strict hno operand h).1
  | .absent, _, h | .placeholder .., _, h => nomatch h

theorem HaveTypes.strict (hno : HasNoError catalogue Γ) : ∀ (es : List Expr) {tys : List Ty},
    HaveTypes catalogue Γ true es tys →
      (∀ t ∈ tys, t ≠ .error) ∧ HaveTypes catalogue Γ false es tys
  | [], _, h => by
    cases h
    exact ⟨by simp, .nil⟩
  | e :: es, _, h => by
    cases h with
    | cons h hs =>
      obtain ⟨hty, h⟩ := HasType.strict hno e h
      obtain ⟨htys, hs⟩ := HaveTypes.strict hno es hs
      refine ⟨?_, .cons h hs⟩
      intro t ht
      rcases List.mem_cons.mp ht with rfl | ht
      · exact hty
      · exact htys t ht

end

/-- **Without errors to propagate, both forms of the rules are the same.** -/
theorem hasType_propagating_iff (hno : HasNoError catalogue Γ) {e : Expr} {ty : Ty} :
    HasType catalogue Γ true e ty ↔ HasType catalogue Γ false e ty :=
  ⟨fun h => (HasType.strict hno e h).2, HasType.propagate e⟩

end
end PascalCheck
