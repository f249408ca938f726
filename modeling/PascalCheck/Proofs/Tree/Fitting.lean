import Mathlib.Data.List.Basic
import PascalCheck.Tree.Value

/-! # Values that are syntax trees

A value is a syntax tree if each field of its parts holds what the kind of the part says
(`SyntaxValue.fits`).  Programs and their parts have such values (`Node.fits_toValue`), and
different ones have different values (`Node.toValue_inj`). -/
namespace PascalCheck
namespace SyntaxValue

mutual

/-- The value can stand in a field of the shape, and so can those in the fields of its parts. -/
@[simp] def fits : FieldShape → SyntaxValue → Bool
  | .text, text _ | .optionalText, text _ | .optionalText, nothing | .flag, flag _
  | .part, nothing => true
  | .part, part kind _ fields => fitAll kind.shapes fields
  | .parts, list items => areParts items
  | _, _ => false

/-- The values are those of fields of the shapes. -/
@[simp] def fitAll : List FieldShape → List SyntaxValue → Bool
  | [], [] => true
  | shape :: shapes, value :: rest => fits shape value && fitAll shapes rest
  | _, _ => false

/-- Each of the values is a part or is missing. -/
@[simp] def areParts : List SyntaxValue → Bool
  | [] => true
  | value :: rest => fits .part value && areParts rest

end

theorem areParts_map {α : Type} {f : α → SyntaxValue} (h : ∀ a, fits .part (f a) = true)
    (items : List α) : areParts (items.map f) = true := by
  induction items with
  | nil => rfl
  | cons a rest ih => simp [h a, ih]

end SyntaxValue

/-- A syntax tree: a part, or nothing, with fields that hold what they should. -/
structure SyntaxTree where
  value : SyntaxValue
  fits : value.fits .part = true

theorem SyntaxTree.value_inj {t t' : SyntaxTree} : t.value = t'.value ↔ t = t' := by
  cases t
  cases t'
  simp

open SyntaxValue

/-! ## Programs are syntax trees -/

attribute [local simp] PartKind.shapes PartKind.fields

namespace Expr

mutual

@[simp] theorem fits_toValue (e : Expr) : fits .part e.toValue = true := by
  cases e with
  | absent => rfl
  | literal value typeName line => rfl
  | identifier name line => rfl
  | call name arguments line =>
    simp [toValue, areParts_toValues arguments]
  | element name index line =>
    simp [toValue, fits_toValue index]
  | binary op left right line =>
    simp [toValue, fits_toValue left, fits_toValue right]
  | unary op operand line =>
    simp [toValue, fits_toValue operand]
  | placeholder text line => rfl

@[simp] theorem areParts_toValues (es : List Expr) : areParts (toValues es) = true := by
  match es with
  | [] => rfl
  | e :: rest => simp [toValues, fits_toValue e, areParts_toValues rest]

end

end Expr

@[simp] theorem TypeSpec.fits_toValue (spec : TypeSpec) : fits .part spec.toValue = true := rfl

@[simp] theorem DeclaredName.fits_toValue (d : DeclaredName) : fits .part d.toValue = true := rfl

@[simp] theorem VarDeclaration.fits_toValue (d : VarDeclaration) :
    fits .part d.toValue = true := by
  simp [toValue, areParts_map DeclaredName.fits_toValue]

@[simp] theorem ConstDeclaration.fits_toValue (d : ConstDeclaration) :
    fits .part d.toValue = true := by
  simp [toValue]

@[simp] theorem Parameter.fits_toValue (p : Parameter) : fits .part p.toValue = true := by
  cases hmodifier : p.modifier <;> simp [toValue, hmodifier]

@[simp] theorem WriteArgument.fits_toValue (a : WriteArgument) : fits .part a.toValue = true := by
  simp [toValue]

@[simp] theorem Fragment.fits_toValue (f : Fragment) : fits .part f.toValue = true := by
  cases f <;> simp [toValue]

namespace Node

mutual

/-- **Every field of a program holds what it should.** -/
theorem fits_toValue (node : Node) : fits .part node.toValue = true := by
  cases node with
  | program name declarations body line =>
    simp [toValue, areParts_toValues declarations, fits_bodyToValue body]
  | varSection declarations line =>
    simp [toValue, areParts_map VarDeclaration.fits_toValue]
  | constSection declarations line =>
    simp [toValue, areParts_map ConstDeclaration.fits_toValue]
  | function name parameters result declarations body line =>
    simp [toValue, areParts_map Parameter.fits_toValue, areParts_toValues declarations,
      fits_bodyToValue body]
  | procedure name parameters declarations body line =>
    simp [toValue, areParts_map Parameter.fits_toValue, areParts_toValues declarations,
      fits_bodyToValue body]
  | block statements line =>
    simp [toValue, areParts_toValues statements]
  | assignment target value index line =>
    simp [toValue]
  | ifThen condition thenBranch elseBranch line =>
    simp [toValue, fits_toValue thenBranch, fits_toValue elseBranch]
  | whileDo condition body line =>
    simp [toValue, fits_toValue body]
  | forDo counter start finish downward body line =>
    simp [toValue, fits_toValue body]
  | repeatUntil statements condition line =>
    simp [toValue, areParts_toValues statements]
  | write routine arguments line =>
    simp [toValue, areParts_map WriteArgument.fits_toValue]
  | read routine targets line =>
    simp [toValue, areParts_map fun target : Target => target.toExpr.fits_toValue]
  | call name arguments line =>
    simp [toValue]
  | expression e => exact e.fits_toValue
  | fragment f => exact f.fits_toValue

theorem areParts_toValues (nodes : List Node) : areParts (toValues nodes) = true := by
  match nodes with
  | [] => rfl
  | node :: rest => simp [toValues, fits_toValue node, areParts_toValues rest]

theorem fits_bodyToValue (body : Body) : fits .part (bodyToValue body) = true := by
  cases body with
  | missing => rfl
  | block statements line =>
    simp [bodyToValue, areParts_toValues statements]

end

end Node

/-! ## Different programs have different values -/

namespace SyntaxValue

/-- What a value is a part of, if it is one. -/
def kind? : SyntaxValue → Option PartKind
  | part kind _ _ => some kind
  | _ => none

end SyntaxValue

namespace PartKind

def isExpression : PartKind → Bool
  | binary | unary | literal | identifier | functionCall | element | placeholder => true
  | _ => false

end PartKind

theorem map_inj_of_inj {α : Type} {f : α → SyntaxValue} (h : ∀ a b, f a = f b → a = b)
    {as bs : List α} (heq : as.map f = bs.map f) : as = bs :=
  List.map_injective_iff.mpr h heq

namespace Expr

mutual

theorem toValue_inj {a b : Expr} (h : a.toValue = b.toValue) : a = b := by
  have hkind := congrArg kind? h
  cases a with
  | absent =>
    cases b <;> first | rfl | cases hkind
  | literal value typeName line =>
    cases b with
    | literal value' typeName' line' =>
      simp only [toValue, part.injEq, List.cons.injEq, text.injEq] at h
      obtain ⟨-, rfl, rfl, rfl, -⟩ := h
      rfl
    | _ => cases hkind
  | identifier name line =>
    cases b with
    | identifier name' line' => simpa [toValue, and_comm] using h
    | _ => cases hkind
  | call name arguments line =>
    cases b with
    | call name' arguments' line' =>
      simp only [toValue, part.injEq, List.cons.injEq, text.injEq, list.injEq] at h
      obtain ⟨-, rfl, rfl, harguments, -⟩ := h
      rw [toValues_inj harguments]
    | _ => cases hkind
  | element name index line =>
    cases b with
    | element name' index' line' =>
      simp only [toValue, part.injEq, List.cons.injEq, text.injEq] at h
      obtain ⟨-, rfl, rfl, hindex, -⟩ := h
      rw [toValue_inj hindex]
    | _ => cases hkind
  | binary op left right line =>
    cases b with
    | binary op' left' right' line' =>
      simp only [toValue, part.injEq, List.cons.injEq, text.injEq] at h
      obtain ⟨-, rfl, rfl, hleft, hright, -⟩ := h
      rw [toValue_inj hleft, toValue_inj hright]
    | _ => cases hkind
  | unary op operand line =>
    cases b with
    | unary op' operand' line' =>
      simp only [toValue, part.injEq, List.cons.injEq, text.injEq] at h
      obtain ⟨-, rfl, rfl, hoperand, -⟩ := h
      rw [toValue_inj hoperand]
    | _ => cases hkind
  | placeholder written line =>
    cases b with
    | placeholder written' line' => simpa [toValue, and_comm] using h
    | _ => cases hkind

theorem toValues_inj {as bs : List Expr} (h : toValues as = toValues bs) : as = bs := by
  match as, bs with
  | [], [] => rfl
  | [], b :: bs => simp [toValues] at h
  | a :: as, [] => simp [toValues] at h
  | a :: as, b :: bs =>
    simp only [toValues, List.cons.injEq] at h
    rw [toValue_inj h.1, toValues_inj h.2]

end

/-- An expression is a part of one of the kinds of expressions. -/
theorem isExpression_of_toValue {e : Expr} {kind : PartKind} {line : Int}
    {fields : List SyntaxValue} (h : e.toValue = part kind line fields) :
    kind.isExpression = true := by
  cases e with
  | absent => cases h
  | _ =>
    simp only [toValue, part.injEq] at h
    obtain ⟨rfl, -, -⟩ := h
    rfl

end Expr

theorem TypeSpec.toValue_inj {a b : TypeSpec} (h : a.toValue = b.toValue) : a = b := by
  cases a
  cases b
  simpa [toValue] using h

theorem DeclaredName.toValue_inj {a b : DeclaredName} (h : a.toValue = b.toValue) : a = b := by
  cases a
  cases b
  simpa [toValue, and_comm] using h

theorem VarDeclaration.toValue_inj {a b : VarDeclaration} (h : a.toValue = b.toValue) :
    a = b := by
  cases a
  cases b
  simp only [toValue, part.injEq, List.cons.injEq, list.injEq] at h
  obtain ⟨-, rfl, hnames, hspec, -⟩ := h
  rw [map_inj_of_inj (fun _ _ => DeclaredName.toValue_inj) hnames, TypeSpec.toValue_inj hspec]

theorem ConstDeclaration.toValue_inj {a b : ConstDeclaration} (h : a.toValue = b.toValue) :
    a = b := by
  cases a
  cases b
  simp only [toValue, part.injEq, List.cons.injEq, text.injEq] at h
  obtain ⟨-, rfl, rfl, hvalue, -⟩ := h
  rw [Expr.toValue_inj hvalue]

theorem Parameter.toValue_inj {a b : Parameter} (h : a.toValue = b.toValue) : a = b := by
  obtain ⟨name, spec, modifier, line⟩ := a
  obtain ⟨name', spec', modifier', line'⟩ := b
  simp only [toValue, part.injEq, List.cons.injEq, text.injEq] at h
  obtain ⟨-, rfl, rfl, hspec, hmodifier, -⟩ := h
  rw [TypeSpec.toValue_inj hspec]
  cases modifier <;> cases modifier' <;> simp_all

theorem WriteArgument.toValue_inj {a b : WriteArgument} (h : a.toValue = b.toValue) : a = b := by
  cases a
  cases b
  simp only [toValue, part.injEq, List.cons.injEq] at h
  obtain ⟨-, -, hvalue, hwidth, hdecimals, -⟩ := h
  rw [Expr.toValue_inj hvalue, Expr.toValue_inj hwidth, Expr.toValue_inj hdecimals]

theorem Target.toValue_inj {a b : Target} (h : a.toExpr.toValue = b.toExpr.toValue) : a = b := by
  have heq := Expr.toValue_inj h
  cases a <;> cases b <;> simp_all [toExpr]

namespace Fragment

theorem toValue_inj {a b : Fragment} (h : a.toValue = b.toValue) : a = b := by
  have hkind := congrArg kind? h
  cases a with
  | typeSpec spec =>
    cases b with
    | typeSpec => rw [TypeSpec.toValue_inj h]
    | _ => cases hkind
  | declaredName d =>
    cases b with
    | declaredName => rw [DeclaredName.toValue_inj h]
    | _ => cases hkind
  | varDeclaration d =>
    cases b with
    | varDeclaration => rw [VarDeclaration.toValue_inj h]
    | _ => cases hkind
  | constDeclaration d =>
    cases b with
    | constDeclaration => rw [ConstDeclaration.toValue_inj h]
    | _ => cases hkind
  | parameter p =>
    cases b with
    | parameter => rw [Parameter.toValue_inj h]
    | _ => cases hkind
  | writeArgument a =>
    cases b with
    | writeArgument => rw [WriteArgument.toValue_inj h]
    | _ => cases hkind

/-- A fragment is no expression. -/
theorem toValue_ne (f : Fragment) (e : Expr) : f.toValue ≠ e.toValue := by
  intro h
  cases f <;> cases Expr.isExpression_of_toValue h.symm

end Fragment

namespace Node

/-- An expression or a fragment stands in the place of a statement. -/
def isBorrowed : Node → Bool
  | expression _ | fragment _ => true
  | _ => false

/-- What stands in the place of a statement is told from all statements. -/
theorem eq_of_isBorrowed {a b : Node} (ha : a.isBorrowed = true) (h : a.toValue = b.toValue) :
    a = b := by
  cases a with
  | expression e =>
    cases b with
    | expression e' => rw [Expr.toValue_inj h]
    | fragment f => exact absurd h.symm (f.toValue_ne e)
    | _ => cases Expr.isExpression_of_toValue h
  | fragment f =>
    cases b with
    | expression e => exact absurd h (f.toValue_ne e)
    | fragment f' => rw [Fragment.toValue_inj h]
    | _ =>
      have hkind := congrArg kind? h
      cases f <;> cases hkind
  | _ => cases ha

mutual

/-- **Different declarations and statements have different values.** -/
theorem toValue_inj {a b : Node} (h : a.toValue = b.toValue) : a = b := by
  -- Nodes with the same value are of one kind, or one of them is borrowed.
  have hkind := congrArg kind? h
  match b with
  | expression e => exact (eq_of_isBorrowed rfl h.symm).symm
  | fragment f => exact (eq_of_isBorrowed rfl h.symm).symm
  | program name declarations body line =>
    cases a with
    | program =>
      simp only [toValue, part.injEq, List.cons.injEq, text.injEq, list.injEq] at h
      obtain ⟨-, rfl, rfl, hdeclarations, hbody, -⟩ := h
      rw [toValues_inj hdeclarations, bodyToValue_inj hbody]
    | _ => first | exact eq_of_isBorrowed rfl h | cases hkind
  | varSection declarations line =>
    cases a with
    | varSection =>
      simp only [toValue, part.injEq, List.cons.injEq, list.injEq] at h
      obtain ⟨-, rfl, hdeclarations, -⟩ := h
      rw [map_inj_of_inj (fun _ _ => VarDeclaration.toValue_inj) hdeclarations]
    | _ => first | exact eq_of_isBorrowed rfl h | cases hkind
  | constSection declarations line =>
    cases a with
    | constSection =>
      simp only [toValue, part.injEq, List.cons.injEq, list.injEq] at h
      obtain ⟨-, rfl, hdeclarations, -⟩ := h
      rw [map_inj_of_inj (fun _ _ => ConstDeclaration.toValue_inj) hdeclarations]
    | _ => first | exact eq_of_isBorrowed rfl h | cases hkind
  | function name parameters result declarations body line =>
    cases a with
    | function =>
      simp only [toValue, part.injEq, List.cons.injEq, text.injEq, list.injEq] at h
      obtain ⟨-, rfl, rfl, hparameters, hresult, hdeclarations, hbody, -⟩ := h
      rw [map_inj_of_inj (fun _ _ => Parameter.toValue_inj) hparameters,
        TypeSpec.toValue_inj hresult, toValues_inj hdeclarations, bodyToValue_inj hbody]
    | _ => first | exact eq_of_isBorrowed rfl h | cases hkind
  | procedure name parameters declarations body line =>
    cases a with
    | procedure =>
      simp only [toValue, part.injEq, List.cons.injEq, text.injEq, list.injEq] at h
      obtain ⟨-, rfl, rfl, hparameters, hdeclarations, hbody, -⟩ := h
      rw [map_inj_of_inj (fun _ _ => Parameter.toValue_inj) hparameters, toValues_inj hdeclarations,
        bodyToValue_inj hbody]
    | _ => first | exact eq_of_isBorrowed rfl h | cases hkind
  | block statements line =>
    cases a with
    | block =>
      simp only [toValue, part.injEq, List.cons.injEq, list.injEq] at h
      obtain ⟨-, rfl, hstatements, -⟩ := h
      rw [toValues_inj hstatements]
    | _ => first | exact eq_of_isBorrowed rfl h | cases hkind
  | assignment target value index line =>
    cases a with
    | assignment =>
      simp only [toValue, part.injEq, List.cons.injEq, text.injEq] at h
      obtain ⟨-, rfl, rfl, hvalue, hindex, -⟩ := h
      rw [Expr.toValue_inj hvalue, Expr.toValue_inj hindex]
    | _ => first | exact eq_of_isBorrowed rfl h | cases hkind
  | ifThen condition thenBranch elseBranch line =>
    cases a with
    | ifThen =>
      simp only [toValue, part.injEq, List.cons.injEq] at h
      obtain ⟨-, rfl, hcondition, hthen, helse, -⟩ := h
      rw [Expr.toValue_inj hcondition, toValue_inj hthen, toValue_inj helse]
    | _ => first | exact eq_of_isBorrowed rfl h | cases hkind
  | whileDo condition body line =>
    cases a with
    | whileDo =>
      simp only [toValue, part.injEq, List.cons.injEq] at h
      obtain ⟨-, rfl, hcondition, hbody, -⟩ := h
      rw [Expr.toValue_inj hcondition, toValue_inj hbody]
    | _ => first | exact eq_of_isBorrowed rfl h | cases hkind
  | forDo counter start finish downward body line =>
    cases a with
    | forDo =>
      simp only [toValue, part.injEq, List.cons.injEq, text.injEq, flag.injEq] at h
      obtain ⟨-, rfl, rfl, hstart, hfinish, rfl, hbody, -⟩ := h
      rw [Expr.toValue_inj hstart, Expr.toValue_inj hfinish, toValue_inj hbody]
    | _ => first | exact eq_of_isBorrowed rfl h | cases hkind
  | repeatUntil statements condition line =>
    cases a with
    | repeatUntil =>
      simp only [toValue, part.injEq, List.cons.injEq, list.injEq] at h
      obtain ⟨-, rfl, hstatements, hcondition, -⟩ := h
      rw [toValues_inj hstatements, Expr.toValue_inj hcondition]
    | _ => first | exact eq_of_isBorrowed rfl h | cases hkind
  | write routine arguments line =>
    cases a with
    | write =>
      simp only [toValue, part.injEq, List.cons.injEq, text.injEq, list.injEq] at h
      obtain ⟨-, rfl, rfl, harguments, -⟩ := h
      rw [map_inj_of_inj (fun _ _ => WriteArgument.toValue_inj) harguments]
    | _ => first | exact eq_of_isBorrowed rfl h | cases hkind
  | read routine targets line =>
    cases a with
    | read =>
      simp only [toValue, part.injEq, List.cons.injEq, text.injEq, list.injEq] at h
      obtain ⟨-, rfl, rfl, htargets, -⟩ := h
      rw [map_inj_of_inj (fun _ _ => Target.toValue_inj) htargets]
    | _ => first | exact eq_of_isBorrowed rfl h | cases hkind
  | call name arguments line =>
    cases a with
    | call =>
      simp only [toValue, part.injEq, List.cons.injEq, text.injEq, list.injEq] at h
      obtain ⟨-, rfl, rfl, harguments, -⟩ := h
      rw [Expr.toValues_inj harguments]
    | _ => first | exact eq_of_isBorrowed rfl h | cases hkind

theorem toValues_inj {as bs : List Node} (h : toValues as = toValues bs) : as = bs := by
  match as, bs with
  | [], [] => rfl
  | [], b :: bs => simp [toValues] at h
  | a :: as, [] => simp [toValues] at h
  | a :: as, b :: bs =>
    simp only [toValues, List.cons.injEq] at h
    rw [toValue_inj h.1, toValues_inj h.2]

theorem bodyToValue_inj {a b : Body} (h : bodyToValue a = bodyToValue b) : a = b := by
  match a, b with
  | .missing, .missing => rfl
  | .missing, .block .. => simp [bodyToValue] at h
  | .block .., .missing => simp [bodyToValue] at h
  | .block statements line, .block statements' line' =>
    simp only [bodyToValue, part.injEq, List.cons.injEq, list.injEq] at h
    obtain ⟨-, rfl, hstatements, -⟩ := h
    rw [toValues_inj hstatements]

end

end Node
end PascalCheck
