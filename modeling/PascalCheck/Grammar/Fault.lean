import PascalCheck.Diagnostic.Basic
import PascalCheck.Token.Basic

/-! Faults against the grammar. Each is found at a token, and none stops the reading. -/
namespace PascalCheck

/-- What the grammar asks for where a token stands. -/
inductive Demand where
  | token (kind : TokenKind)
  | equals
  | typeName
  | direction
  | separator
  | statement
  | factor
  deriving DecidableEq

/-- A token that does not meet a demand. -/
structure GrammarFault where
  demand : Demand
  found : Token
  deriving DecidableEq

namespace GrammarFault

def message (fault : GrammarFault) : String :=
  let found := fault.found.describe
  match fault.demand with
  | .token kind => s!"Expected '{kind.label}' but found {found}"
  | .equals => s!"Expected '=' but found {found}"
  | .typeName => s!"Expected a type name but found {found}"
  | .direction => s!"Expected 'to' or 'downto' in for statement but found {found}"
  | .separator => s!"Expected ';' after statement but found {found}"
  | .statement => s!"Unexpected statement: {found}"
  | .factor => s!"Unexpected factor: {found}"

/-- The diagnostic of a fault, at its token. -/
def diagnostic (fault : GrammarFault) : Diagnostic :=
  .of .error .syntactic fault.message ⟨some fault.found.line, some fault.found.column⟩ ""

end GrammarFault
end PascalCheck
