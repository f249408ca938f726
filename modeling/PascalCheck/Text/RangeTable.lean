/-! Sets of code points written as increasing lists of closed ranges. -/
namespace PascalCheck
namespace Text

/-- Closed ranges of code points, in increasing order. -/
abbrev RangeTable := List (Nat × Nat)

namespace RangeTable

/-- Some range of the table covers the code point. -/
def covers (table : RangeTable) (code : Nat) : Bool :=
  table.any fun range => range.1 ≤ code && code ≤ range.2

theorem covers_iff {table : RangeTable} {code : Nat} :
    table.covers code = true ↔ ∃ range ∈ table, range.1 ≤ code ∧ code ≤ range.2 := by
  simp [covers]

end RangeTable
end Text
end PascalCheck
