import PascalCheck.Text.Case
import PascalCheck.Ty.Basic

/-! Symbols in nested scopes. Names are looked up without regard to letter case, innermost scope
first. A symbol outlives its scope: it is numbered in the order of declaration and keeps its
number, and what is recorded of it stays when its scope is closed. -/
namespace PascalCheck

/-- What a symbol stands for. -/
inductive Category where
  | variable | constant
  /-- A variable that counts a loop. -/
  | counter
  /-- The name of a function inside the function, which stands for its result. -/
  | result
  deriving DecidableEq

/-- A declared name. -/
structure Symbol where
  name : String
  ty : Ty
  scope : String
  line : Int
  category : Category := .variable
  initialized : Bool := false
  uses : Nat := 0
  deriving DecidableEq

/-- A scope: its name, and the numbers of its symbols under their names in lower case, in the order
of declaration. -/
structure Scope where
  name : String
  entries : List (String × Nat) := []
  deriving DecidableEq

namespace Scope

/-- The number of the symbol that is declared in the scope under a name in lower case. -/
def number? (scope : Scope) (key : String) : Option Nat :=
  scope.entries.lookup key

end Scope

/-- All symbols declared so far, the open scopes, and how many scopes have been opened. The outermost
scope is never closed. -/
structure ScopeTable where
  symbols : Array Symbol := #[]
  /-- The open scopes inside the outermost one, innermost first. -/
  inner : List Scope := []
  outermost : Scope := ⟨"global", []⟩
  opened : Nat := 1
  deriving DecidableEq

namespace ScopeTable

/-- The table of a run that has declared nothing. -/
def empty : ScopeTable := {}

/-- The open scopes, innermost first. -/
def scopes (table : ScopeTable) : List Scope :=
  table.inner ++ [table.outermost]

def depth (table : ScopeTable) : Nat :=
  table.inner.length + 1

/-- The innermost open scope. -/
def current (table : ScopeTable) : Scope :=
  table.inner.headD table.outermost

/-- The table with another innermost scope. -/
def withCurrent (table : ScopeTable) (scope : Scope) : ScopeTable :=
  match table.inner with
  | [] => { table with outermost := scope }
  | _ :: rest => { table with inner := scope :: rest }

/-- Opens a scope. One without a name is named after the number of scopes opened. -/
def push (table : ScopeTable) (name : String) : ScopeTable :=
  let opened := table.opened + 1
  let name := if name = "" then s!"scope_{opened}" else name
  { table with inner := ⟨name, []⟩ :: table.inner, opened }

/-- Closes the innermost scope; the outermost one stays open. -/
def pop (table : ScopeTable) : ScopeTable :=
  { table with inner := table.inner.tail }

/-- The number of the symbol that a name means in the innermost scope. -/
def lookupCurrent (table : ScopeTable) (name : String) : Option Nat :=
  table.current.number? (Text.lower name)

/-- The number of the symbol that a name means. -/
def lookup (table : ScopeTable) (name : String) : Option Nat :=
  table.scopes.findSome? (·.number? (Text.lower name))

/-- The symbol that a name means. -/
def find? (table : ScopeTable) (name : String) : Option Symbol :=
  (table.lookup name).bind (table.symbols[·]?)

/-- The symbol that a name means in the innermost scope. -/
def findCurrent? (table : ScopeTable) (name : String) : Option Symbol :=
  (table.lookupCurrent name).bind (table.symbols[·]?)

/-- Declares a name in the innermost scope; nothing if it is declared there already. -/
def declare? (table : ScopeTable) (name : String) (ty : Ty) (line : Int)
    (category : Category) : Option ScopeTable :=
  let scope := table.current
  let key := Text.lower name
  match scope.number? key with
  | some _ => none
  | none =>
    let entries := scope.entries ++ [(key, table.symbols.size)]
    let symbol : Symbol := { name, ty, scope := scope.name, line, category }
    some { table.withCurrent ⟨scope.name, entries⟩ with symbols := table.symbols.push symbol }

/-- Changes the symbol that a name means, if it means one. -/
def update (table : ScopeTable) (name : String) (change : Symbol → Symbol) : ScopeTable :=
  match table.lookup name with
  | some number => { table with symbols := table.symbols.modify number change }
  | none => table

/-- Records that a value has been stored. -/
def markInitialized (table : ScopeTable) (name : String) : ScopeTable :=
  table.update name fun symbol => { symbol with initialized := true }

/-- Records one more use. -/
def countUse (table : ScopeTable) (name : String) : ScopeTable :=
  table.update name fun symbol => { symbol with uses := symbol.uses + 1 }

/-- Records what the symbol stands for. -/
def setCategory (table : ScopeTable) (name : String) (category : Category) : ScopeTable :=
  table.update name fun symbol => { symbol with category }

end ScopeTable
end PascalCheck
