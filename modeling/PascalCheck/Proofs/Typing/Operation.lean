import PascalCheck.Ty.Operator

/-! The table of operations on two types, row by row, and that it is what the operators yield. -/
namespace PascalCheck

theorem Ty.isError_iff {ty : Ty} : ty.isError = true ↔ ty = .error := by
  cases ty <;> simp [Ty.isError]

/-- A spelling of an operator with two operands. -/
def isOperator (text : String) : Bool :=
  Operator.all.any (·.text = text)

/-- A row of the table: what operators yield on a left operand, for each type of the right one. -/
structure OperationRow where
  left : Ty
  operators : List Operator
  results : List (Ty × Ty)

namespace OperationRow

/-- The type that the row gives for an operation, if it gives one. -/
def result? (row : OperationRow) (op : Operator) (left right : Ty) : Option Ty :=
  if row.left = left ∧ op ∈ row.operators then row.results.lookup right else none

end OperationRow

namespace Operator

/-- The operations that are defined. -/
def table : List OperationRow :=
  [⟨.integer, [add, subtract, multiply], [(.integer, .integer), (.real, .real)]⟩,
   ⟨.integer, [divide], [(.integer, .real), (.real, .real)]⟩,
   ⟨.integer, [div, mod], [(.integer, .integer)]⟩,
   ⟨.integer, [equal, unequal, less, greater, atMost, atLeast],
    [(.integer, .boolean), (.real, .boolean)]⟩,
   ⟨.real, [add, subtract, multiply, divide], [(.integer, .real), (.real, .real)]⟩,
   ⟨.real, [equal, unequal, less, greater, atMost, atLeast],
    [(.integer, .boolean), (.real, .boolean)]⟩,
   ⟨.boolean, [and, or, equal, unequal], [(.boolean, .boolean)]⟩,
   ⟨.char, [equal, unequal, less, greater], [(.char, .boolean)]⟩,
   ⟨.char, [add], [(.char, .string), (.string, .string)]⟩,
   ⟨.string, [add], [(.string, .string), (.char, .string)]⟩,
   ⟨.string, [equal, unequal], [(.string, .boolean)]⟩]

/-- The type of an operation by the table. -/
def tableType? (op : Operator) (left right : Ty) : Option Ty :=
  table.findSome? (·.result? op left right)

/-- Operators yield what the table says, and nothing else. -/
theorem result?_eq_tableType? (op : Operator) (left right : Ty) :
    op.result? left right = op.tableType? left right := by
  cases op <;> cases left <;> cases right <;> rfl

theorem ofText?_text (op : Operator) : ofText? op.text = some op := by
  cases op <;> rfl

theorem text_injective {op op' : Operator} (h : op.text = op'.text) : op = op' := by
  have hsome := congrArg ofText? h
  rw [ofText?_text, ofText?_text] at hsome
  exact Option.some.inj hsome

theorem exists_text_eq {text : String} (h : isOperator text = true) :
    ∃ op : Operator, op.text = text := by
  obtain ⟨op, -, hop⟩ := List.any_eq_true.mp h
  exact ⟨op, of_decide_eq_true hop⟩

/-- The table knows nothing of errors. -/
theorem ne_error_of_mem_table : ∀ row ∈ table, row.left ≠ .error ∧
    ∀ entry ∈ row.results, entry.1 ≠ .error ∧ entry.2 ≠ .error := by
  decide

theorem ne_error_of_tableType? {op : Operator} {left right ty : Ty}
    (h : op.tableType? left right = some ty) :
    left ≠ .error ∧ right ≠ .error ∧ ty ≠ .error := by
  obtain ⟨row, hrow, hresult⟩ := List.exists_of_findSome?_eq_some h
  unfold OperationRow.result? at hresult
  split at hresult
  next hleft =>
    obtain ⟨hl, hentries⟩ := ne_error_of_mem_table row hrow
    obtain ⟨before, after, hsplit, -⟩ := List.lookup_eq_some_iff.mp hresult
    have hentry := hentries (right, ty) (by simp [hsplit])
    exact ⟨hleft.1 ▸ hl, hentry⟩
  next => cases hresult

end Operator
end PascalCheck
