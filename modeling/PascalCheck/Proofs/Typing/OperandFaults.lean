import Mathlib.Logic.Relation
import PascalCheck.Proofs.Recovery.Steps
import PascalCheck.Proofs.Walk.Looking

/-! # A fault of an operand is reported once

An expression is given its type when its parts have theirs, by a step of its own
(`Analysis.typeOf_eq_conclude`).  The step of an operation on types without errors either yields a
type or finds fault with the operation, and then the operation is in error; where an operand is in
error it finds nothing and passes the error on (`Concludes`).  So an error goes up through all the
operations above it, none of which reports anything (`Visit.Ends.error_mem`), and what uses the
expression as a condition, as a bound or as an assigned value accepts it without a word.  **Of the
operations above one another only one reports** (`Visit.reportsOnce`). -/
namespace PascalCheck

namespace Expr

/-- The parts of an expression, which are given their types first, in order. -/
def parts : Expr → List Expr
  | call _ arguments _ => arguments
  | element _ index _ => [index]
  | binary _ left right _ => [left, right]
  | unary _ operand _ => [operand]
  | absent | literal _ _ _ | identifier _ _ | placeholder _ _ => []

/-- An operator with its operands. -/
def isOperation : Expr → Bool
  | binary _ _ _ _ | unary _ _ _ => true
  | _ => false

end Expr

/-- The finding is that an operation is not defined on its operands. -/
def Finding.isOfOperation : Finding → Bool
  | incompatible _ _ _ | notOperand _ | negated _ => true
  | _ => false

namespace Analysis
variable {catalogue : Catalogue}

/-- The step that gives an expression its type when its parts have theirs. -/
def conclude (catalogue : Catalogue) (e : Expr) (types : List Ty) : Analysis Ty :=
  match e with
  | .absent | .placeholder _ _ => pure .error
  | .literal _ typeName _ => literalType typeName
  | .identifier name line => nameType catalogue name line
  | .call name _ line => callType catalogue name types line
  | .element name _ line => elementType name line
  | .binary op _ _ line => binaryType op (types.headD .error) (types.tail.headD .error) line
  | .unary op _ line => unaryType op (types.headD .error) line

/-- **The types of the parts come first**, and then the type of the expression. -/
theorem typeOf_eq_conclude (e : Expr) :
    typeOf catalogue e = typesOf catalogue e.parts >>= conclude catalogue e := by
  cases e with
  | call name arguments line => rfl
  | _ => simp [typeOf, typesOf, Expr.parts, conclude]

theorem typesOf_append (es more : List Expr) :
    typesOf catalogue (es ++ more) = do
      let types ← typesOf catalogue es
      let others ← typesOf catalogue more
      return types ++ others := by
  induction es with
  | nil => simp [typesOf]
  | cons e rest ih => simp [typesOf, ih]

end Analysis

open Analysis

/-- A walk over an expression, from the state in which it begins. -/
structure Visit where
  expression : Expr
  here : AnalysisState

namespace Visit
variable (catalogue : Catalogue)

/-- The walk over the first expression comes to the second one, which is a part of it. -/
def Enters (v w : Visit) : Prop :=
  ∃ before after types, v.expression.parts = before ++ w.expression :: after ∧
    StateT.run (typesOf catalogue before) v.here = .ok (types, w.here)

/-- The walk over an operation comes to one of its operands. -/
def EntersOperand (v w : Visit) : Prop :=
  v.expression.isOperation = true ∧ v.Enters catalogue w

/-- The parts of the expression are given the types, up to the state `there`, and then the
expression is given its own. -/
structure Ends (v : Visit) (types : List Ty) (there : AnalysisState) (ty : Ty)
    (next : AnalysisState) : Prop where
  parts : StateT.run (typesOf catalogue v.expression.parts) v.here = .ok (types, there)
  own : StateT.run (conclude catalogue v.expression types) there = .ok (ty, next)

/-- The expression is an operation, and its own step finds something. -/
def Reports (v : Visit) : Prop :=
  v.expression.isOperation = true ∧ ∃ types there ty next,
    v.Ends catalogue types there ty next ∧ next.findings ≠ there.findings

variable {catalogue} {v w : Visit} {types : List Ty} {there next : AnalysisState} {ty : Ty}

theorem run_typeOf_iff :
    StateT.run (typeOf catalogue v.expression) v.here = .ok (ty, next) ↔
      ∃ types there, v.Ends catalogue types there ty next := by
  rw [typeOf_eq_conclude, run_bind_eq_ok]
  constructor
  · rintro ⟨types, there, hparts, hown⟩
    exact ⟨types, there, hparts, hown⟩
  · rintro ⟨types, there, h⟩
    exact ⟨types, there, h.parts, h.own⟩

/-- A part that the walk comes to is given a type, which is one of those of the parts. -/
theorem Ends.of_enters (h : v.Ends catalogue types there ty next) (hw : v.Enters catalogue w) :
    ∃ part behind, StateT.run (typeOf catalogue w.expression) w.here = .ok (part, behind) ∧
      part ∈ types := by
  obtain ⟨before, after, front, hsplit, hfront⟩ := hw
  have hparts := h.parts
  rw [hsplit, typesOf_append] at hparts
  obtain ⟨front', _, hfront', hparts⟩ := run_bind_eq_ok.mp hparts
  cases hfront.symm.trans hfront'
  obtain ⟨others, _, hothers, hparts⟩ := run_bind_eq_ok.mp hparts
  cases hparts
  obtain ⟨part, behind, hpart, hothers⟩ := run_bind_eq_ok.mp hothers
  obtain ⟨rest, _, -, hothers⟩ := run_bind_eq_ok.mp hothers
  cases hothers
  exact ⟨part, behind, hpart, by simp⟩

end Visit

/-! ## Operations -/

namespace Analysis
variable {line : Int} {s s' : AnalysisState} {ty : Ty}

theorem run_reject {finding : Finding} (h : StateT.run (reject line finding) s = .ok (ty, s')) :
    ty = .error ∧ s' = s.reporting [⟨finding, line⟩] := by
  cases h
  exact ⟨rfl, by simp [AnalysisState.reporting]⟩

end Analysis

/-- The step of an operation passes on the error of an operand, or else it yields a type and reports
nothing, or finds one fault with the operation, which is in error. -/
structure Concludes (types : List Ty) (s : AnalysisState) (ty : Ty) (s' : AnalysisState) :
    Prop where
  passes : .error ∈ types → ty = .error ∧ s' = s
  decides : .error ∉ types → (ty ≠ .error ∧ s' = s) ∨ (ty = .error ∧
    ∃ f : LocatedFinding, f.finding.isOfOperation = true ∧ s' = s.reporting [f])

namespace Concludes
variable {types : List Ty} {s s' : AnalysisState} {ty : Ty}

theorem of_pass (hmem : .error ∈ types) : Concludes types s .error s :=
  ⟨fun _ => ⟨rfl, rfl⟩, fun h => absurd hmem h⟩

theorem of_yield (hmem : .error ∉ types) (hty : ty ≠ .error) : Concludes types s ty s :=
  ⟨fun h => absurd h hmem, fun _ => .inl ⟨hty, rfl⟩⟩

theorem of_reject (hmem : .error ∉ types) {line : Int} {finding : Finding}
    (hf : finding.isOfOperation = true)
    (h : StateT.run (reject line finding) s = .ok (ty, s')) : Concludes types s ty s' := by
  obtain ⟨rfl, rfl⟩ := run_reject h
  exact ⟨fun h => absurd h hmem, fun _ => .inr ⟨rfl, _, hf, rfl⟩⟩

theorem of_binaryType {op : String} {l r : Ty} {line : Int}
    (h : StateT.run (binaryType op l r line) s = .ok (ty, s')) : Concludes [l, r] s ty s' := by
  have hmem : .error ∈ [l, r] ↔ l = .error ∨ r = .error := by
    simp [eq_comm]
  unfold binaryType at h
  by_cases he : l = .error ∨ r = .error
  · have hbinary : Ty.binary? op l r = some .error :=
      if_pos (by simpa [Ty.isError_iff] using he)
    rw [hbinary] at h
    cases h
    exact of_pass (hmem.mpr he)
  · split at h
    next result hbinary =>
      cases h
      exact of_yield (mt hmem.mp he) fun herror => he (Ty.binary?_eq_error (herror ▸ hbinary))
    next => exact of_reject (mt hmem.mp he) rfl h

theorem of_unaryType {op : String} {operand : Ty} {line : Int}
    (h : StateT.run (unaryType op operand line) s = .ok (ty, s')) :
    Concludes [operand] s ty s' := by
  have hmem : .error ∈ [operand] ↔ operand = .error := by
    simp [eq_comm]
  unfold unaryType at h
  split at h
  next he =>
    cases h
    exact of_pass (hmem.mpr (Ty.isError_iff.mp he))
  next he =>
    have hne : operand ≠ .error := mt Ty.isError_iff.mpr he
    split at h
    · split at h
      · cases h
        exact of_yield (mt hmem.mp hne) (by decide)
      · exact of_reject (mt hmem.mp hne) rfl h
    · split at h
      · cases h
        exact of_yield (mt hmem.mp hne) hne
      · exact of_reject (mt hmem.mp hne) rfl h

end Concludes

namespace Visit
variable {catalogue : Catalogue} {v w : Visit} {types : List Ty} {there next : AnalysisState}
  {ty : Ty}

theorem Ends.concludes (h : v.Ends catalogue types there ty next)
    (hop : v.expression.isOperation = true) : Concludes types there ty next := by
  obtain ⟨e, here⟩ := v
  obtain ⟨hparts, hown⟩ := h
  cases e with
  | binary op left right line =>
    -- There is one type for each of the operands.
    obtain ⟨l, _, -, hparts⟩ := run_bind_eq_ok.mp hparts
    obtain ⟨ts, _, hts, hparts⟩ := run_bind_eq_ok.mp hparts
    cases hparts
    obtain ⟨r, _, -, hts⟩ := run_bind_eq_ok.mp hts
    cases hts
    exact .of_binaryType hown
  | unary op operand line =>
    obtain ⟨t, _, -, hparts⟩ := run_bind_eq_ok.mp hparts
    cases hparts
    exact .of_unaryType hown
  | _ => cases hop

/-- **An operation reports only on operands without errors**, and then it is in error itself. -/
theorem Ends.of_reports (h : v.Ends catalogue types there ty next) (hv : v.Reports catalogue) :
    .error ∉ types ∧ ty = .error := by
  obtain ⟨hop, types', there', ty', next', hends, hfindings⟩ := hv
  cases h.parts.symm.trans hends.parts
  cases h.own.symm.trans hends.own
  have hmem : .error ∉ types := fun hmem =>
    hfindings (by rw [((h.concludes hop).passes hmem).2])
  refine ⟨hmem, ?_⟩
  rcases (h.concludes hop).decides hmem with ⟨-, rfl⟩ | ⟨rfl, -⟩
  · exact absurd rfl hfindings
  · rfl

/-- **An error goes up** through all the operations above the one that reports it. -/
theorem Ends.error_mem (h : v.Ends catalogue types there ty next)
    (hvw : Relation.TransGen (EntersOperand catalogue) v w) (hw : w.Reports catalogue) :
    .error ∈ types := by
  induction hvw using Relation.TransGen.head_induction_on generalizing types there ty next with
  | single hvw =>
    obtain ⟨part, behind, hrun, hpart⟩ := h.of_enters hvw.2
    obtain ⟨types', there', hends⟩ := run_typeOf_iff.mp hrun
    exact (hends.of_reports hw).2 ▸ hpart
  | head hvu huw ih =>
    obtain ⟨part, behind, hrun, hpart⟩ := h.of_enters hvu.2
    obtain ⟨types', there', hends⟩ := run_typeOf_iff.mp hrun
    obtain ⟨_, hop, -⟩ := Relation.TransGen.head'_iff.mp huw
    exact ((hends.concludes hop.1).passes (ih hends)).1 ▸ hpart

/-- A walk that ends has come to each of the parts. -/
theorem Ends.exists_enters (h : v.Ends catalogue types there ty next) {e : Expr}
    {before after : List Expr} (hsplit : v.expression.parts = before ++ e :: after) :
    ∃ here, v.Enters catalogue ⟨e, here⟩ := by
  have hparts := h.parts
  rw [hsplit, typesOf_append] at hparts
  obtain ⟨front, here, hfront, -⟩ := run_bind_eq_ok.mp hparts
  exact ⟨here, before, after, front, hsplit, hfront⟩

end Visit

/-! ## What uses an expression -/

namespace Analysis
variable {catalogue : Catalogue} {e : Expr} {s next : AnalysisState}

/-- An expression in error is not reported again where it is a condition. -/
theorem run_checkCondition_error (h : StateT.run (typeOf catalogue e) s = .ok (.error, next))
    (statement : Conditional) (line : Int) :
    StateT.run (checkCondition catalogue e statement line) s = .ok ((), next) :=
  run_bind_eq_ok.mpr ⟨.error, next, h, rfl⟩

theorem run_checkBound_error (h : StateT.run (typeOf catalogue e) s = .ok (.error, next))
    (which : Bound) (line : Int) :
    StateT.run (checkBound catalogue which e line) s = .ok ((), next) :=
  run_bind_eq_ok.mpr ⟨.error, next, h, rfl⟩

/-- A value in error is stored without a report of its type. -/
theorem run_walkAssignment_error {target : String} {symbol : Symbol} {index : Expr} {line : Int}
    {start : AnalysisState} {ty : Ty} (hsymbol : start.table.find? target = some symbol)
    (hcategory : symbol.category ≠ .constant)
    (hindex : StateT.run (checkNotCounter target line >>= fun _ => typeOf catalogue index) start =
      .ok (ty, s))
    (h : StateT.run (typeOf catalogue e) s = .ok (.error, next)) :
    StateT.run (walkAssignment catalogue target e index line) start =
      .ok ((), { next with table := next.table.markInitialized target }) := by
  obtain ⟨_, _, hcounter, hindex⟩ := run_bind_eq_ok.mp hindex
  have haccepts : symbol.ty.accepts .error = true := by
    simp [Ty.accepts, Ty.isError]
  refine run_bind_eq_ok.mpr ⟨some symbol, start, by rw [← hsymbol]; rfl, ?_⟩
  refine run_bind_eq_ok.mpr ⟨_, _, hcounter, ?_⟩
  rw [if_neg hcategory]
  refine run_bind_eq_ok.mpr ⟨_, _, hindex, ?_⟩
  refine run_bind_eq_ok.mpr ⟨_, _, h, ?_⟩
  rw [haccepts]
  rfl

end Analysis

/-! ## One report -/

/-- A fault that is found in an expression is not found again by the operations around it, nor by
what uses the expression. -/
structure Visit.ReportsOnce (catalogue : Catalogue) (v : Visit) : Prop where
  /-- The expression has its type by a step of its own, behind the walks over its parts. -/
  ends : ∀ ty next, StateT.run (typeOf catalogue v.expression) v.here = .ok (ty, next) ↔
    ∃ types there, v.Ends catalogue types there ty next
  enters : ∀ {types there ty next}, v.Ends catalogue types there ty next →
    ∀ {before e after}, v.expression.parts = before ++ e :: after →
      ∃ here, v.Enters catalogue ⟨e, here⟩
  operation : ∀ {types there ty next}, v.Ends catalogue types there ty next →
    v.expression.isOperation = true → Concludes types there ty next
  /-- Of two operations, one of which is above the other with only operations between them, one
  reports nothing. -/
  nested : ∀ {w}, Relation.TransGen (EntersOperand catalogue) v w →
    ¬ (v.Reports catalogue ∧ w.Reports catalogue)
  condition : ∀ {next}, StateT.run (typeOf catalogue v.expression) v.here = .ok (.error, next) →
    ∀ statement line,
      StateT.run (checkCondition catalogue v.expression statement line) v.here = .ok ((), next)
  bound : ∀ {next}, StateT.run (typeOf catalogue v.expression) v.here = .ok (.error, next) →
    ∀ which line,
      StateT.run (checkBound catalogue which v.expression line) v.here = .ok ((), next)
  /-- The walk over the value begins behind the look at the target and at its index. -/
  assignment : ∀ {next}, StateT.run (typeOf catalogue v.expression) v.here = .ok (.error, next) →
    ∀ {target symbol index line start ty}, start.table.find? target = some symbol →
      symbol.category ≠ .constant →
      StateT.run (checkNotCounter target line >>= fun _ => typeOf catalogue index) start =
        .ok (ty, v.here) →
      StateT.run (walkAssignment catalogue target v.expression index line) start =
        .ok ((), { next with table := next.table.markInitialized target })

/-- **A fault of an operand is reported once**, whatever the names of the expression mean and
whatever built-in routines there are. -/
theorem Visit.reportsOnce (catalogue : Catalogue) (v : Visit) : v.ReportsOnce catalogue where
  ends _ _ := run_typeOf_iff
  enters h _ _ _ hsplit := h.exists_enters hsplit
  operation h hop := h.concludes hop
  nested := by
    rintro w hvw ⟨hv, hw⟩
    obtain ⟨_, types, there, ty, next, hends, -⟩ := id hv
    exact (hends.of_reports hv).1 (hends.error_mem hvw hw)
  condition h := run_checkCondition_error h
  bound h := run_checkBound_error h
  assignment h _ _ _ _ _ _ hsymbol hcategory hindex :=
    run_walkAssignment_error hsymbol hcategory hindex h

/-- Only the innermost operation of `not (1 + true)` is reported. -/
example (catalogue : Catalogue) :
    (StateT.run (typeOf catalogue (.unary "not" (.binary "+" (.literal "1" "integer" 1)
      (.literal "true" "boolean" 1) 1) 1)) {}).toOption.map (fun p => (p.1, p.2.findings)) =
    some (.error, #[⟨.incompatible "+" .integer .boolean, 1⟩]) := by
  cbv

end PascalCheck
