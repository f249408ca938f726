import PascalCheck.Scope.Basic
import PascalCheck.Text.Quoted

/-! What the symbols of a run tell when it is over: which are unused, which names are declared more
than once, and the text of the whole table. -/
namespace PascalCheck

namespace Category

/-- The category as records name it. -/
def label : Category → String
  | .variable => "variable"
  | .constant => "constant"
  | .counter => "for_control"
  | .result => "return_value"

/-- The category as dumps name it. -/
def title : Category → String
  | .variable => "VARIABLE"
  | .constant => "CONSTANT"
  | .counter => "FOR_CONTROL"
  | .result => "RETURN_VALUE"

end Category

namespace Symbol

/-- The symbol in a dump. Its flags follow the line; a space stands there also without any. -/
def render (symbol : Symbol) : String :=
  let stored := if symbol.initialized then ["init"] else []
  let used := if symbol.uses = 0 then [] else [s!"used={symbol.uses}"]
  let flags := " ".intercalate (stored ++ used)
  let name := Text.quoted symbol.name
  s!"Symbol({symbol.category.title} {symbol.ty.name} {name} @{symbol.line} {flags})"

end Symbol

/-- A symbol and its number. -/
abbrev NumberedSymbol := Symbol × Nat

/-- The symbols of one name in lower case. -/
structure NameGroup where
  key : String
  members : List NumberedSymbol

namespace ScopeTable

/-- All symbols with their numbers, in the order of declaration. -/
def numbered (table : ScopeTable) : List NumberedSymbol :=
  table.symbols.toList.zipIdx

/-- The symbols ever declared under a name. -/
def lookupAll (table : ScopeTable) (name : String) : List NumberedSymbol :=
  table.numbered.filter fun s => Text.lower s.1.name == Text.lower name

/-- The variables that nothing uses. -/
def unused (table : ScopeTable) : List NumberedSymbol :=
  table.numbered.filter fun s => s.1.category = .variable && s.1.uses == 0

/-- The symbols that take part in ambiguities: all but the results of functions. -/
def nameable (table : ScopeTable) : List NumberedSymbol :=
  table.numbered.filter fun s => s.1.category ≠ .result

/-- The symbols of each name, in the order of the first declaration. -/
def groups (table : ScopeTable) : List NameGroup :=
  let keyed := table.nameable.map fun s => (Text.lower s.1.name, s)
  let keys := (keyed.map (·.1)).eraseDups
  keys.map fun key => ⟨key, (keyed.filter (·.1 == key)).map (·.2)⟩

/-- The names that are declared more than once. -/
def ambiguities (table : ScopeTable) : List NameGroup :=
  table.groups.filter fun group => 1 < group.members.length

/-- The names that are declared with different types. -/
def typeAmbiguities (table : ScopeTable) : List NameGroup :=
  table.ambiguities.filter fun group =>
    group.members.any fun s => group.members.any fun t => s.1.ty.name != t.1.ty.name

/-- The names of scopes that have symbols and are no longer open, in order. -/
def closedScopes (table : ScopeTable) : List String :=
  let isOpen (name : String) := table.scopes.any (·.name == name)
  let names := (table.symbols.toList.map (·.scope)).eraseDups.filter fun name => !isOpen name
  names.mergeSort fun a b => decide (a ≤ b)

/-- The lines of a scope at a depth. -/
def dumpScope (table : ScopeTable) (depth : Nat) (scope : Scope) : List String :=
  let indent := String.ofList (List.replicate (2 * depth) ' ')
  let symbols := scope.entries.filterMap fun entry => table.symbols[entry.2]?
  s!"{indent}[{scope.name}]" :: symbols.map fun symbol => s!"{indent}  {symbol.render}"

/-- The open scopes from the outermost on, each with its symbols, and the names of the closed
ones. -/
def dump (table : ScopeTable) : String :=
  let opened := table.scopes.reverse.zipIdx.flatMap fun s => table.dumpScope s.2 s.1
  let closed := match table.closedScopes with
    | [] => []
    | names => ["(closed scopes: " ++ ", ".intercalate names ++ ")"]
  "\n".intercalate (opened ++ closed)

end ScopeTable
end PascalCheck
