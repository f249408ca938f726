import Mathlib.Data.List.Induction
import Mathlib.Logic.Function.Basic
import PascalCheck.Scope.View

/-! # Requests to a table of scopes

A table of scopes serves requests one after the other.  Here are the requests with their replies,
and a model that serves the same requests with less: a stack of open scopes, each a map from names
in lower case to places in a log, and the log of all symbols that were ever declared.  The table is
an implementation of the model: seen as a stack of maps and a log (`ScopeTable.toModel`), it replies
to every request as the model does and goes on to what the model goes on to. -/
namespace PascalCheck

/-- What a table of scopes can be asked for. -/
inductive ScopeRequest where
  /-- To open a scope; one without a name is named after the number of scopes opened. -/
  | push (name : String)
  | pop
  | declare (name : String) (ty : Ty) (line : Int) (category : Category)
  | lookup (name : String)
  | lookupCurrent (name : String)
  | lookupAll (name : String)
  | markInitialized (name : String)
  | countUse (name : String)
  /-- To set the category of the symbol that a name means. -/
  | setCategory (name : String) (category : Category)
  /-- To set the category of a symbol that was found earlier. -/
  | setCategoryOf (number : Nat) (category : Category)

/-- What a table of scopes replies. -/
inductive ScopeReply where
  | done
  /-- A scope was opened, with that name. -/
  | opened (name : String)
  /-- Whether what was asked for was possible. -/
  | met (success : Bool)
  | found (symbol : Option NumberedSymbol)
  | listed (symbols : List NumberedSymbol)

/-- How many scopes are open after one more request. -/
def ScopeRequest.depth (before : Nat) : ScopeRequest → Nat
  | .push _ => before + 1
  | .pop => max 1 (before - 1)
  | _ => before

/-- What a symbol is declared with; nothing changes it. -/
structure SymbolDeclaration where
  name : String
  ty : Ty
  scope : String
  line : Int

def Symbol.declaration (symbol : Symbol) : SymbolDeclaration :=
  ⟨symbol.name, symbol.ty, symbol.scope, symbol.line⟩

/-! ## The table -/

namespace ScopeTable

/-- The symbol of a number that may be missing, with the number. -/
def numbered? (table : ScopeTable) (number : Option Nat) : Option NumberedSymbol :=
  number.bind fun n => table.symbols[n]?.map (·, n)

/-- The table with a change of the symbol of a number, if there is one. -/
def modify (table : ScopeTable) (number : Nat) (change : Symbol → Symbol) : ScopeTable :=
  { table with symbols := table.symbols.modify number change }

/-- The reply to a request, and the table after it. -/
def serve (table : ScopeTable) : ScopeRequest → ScopeReply × ScopeTable
  | .push name => (.opened (table.push name).current.name, table.push name)
  | .pop => (.done, table.pop)
  | .declare name ty line category =>
    match table.declare? name ty line category with
    | some declared => (.met true, declared)
    | none => (.met false, table)
  | .lookup name => (.found (table.numbered? (table.lookup name)), table)
  | .lookupCurrent name => (.found (table.numbered? (table.lookupCurrent name)), table)
  | .lookupAll name => (.listed (table.lookupAll name), table)
  | .markInitialized name => (.met (table.lookup name).isSome, table.markInitialized name)
  | .countUse name => (.met (table.lookup name).isSome, table.countUse name)
  | .setCategory name category =>
    (.met (table.lookup name).isSome, table.setCategory name category)
  | .setCategoryOf number category =>
    (.done, table.modify number fun symbol => { symbol with category })

/-- What the table declares when it serves a request. -/
def declares (table : ScopeTable) (request : ScopeRequest) : List SymbolDeclaration :=
  match request, (table.serve request).1 with
  | .declare name ty line _, .met true => [⟨name, ty, table.current.name, line⟩]
  | _, _ => []

/-- The table after requests to a new one. -/
def after (requests : List ScopeRequest) : ScopeTable :=
  requests.foldl (fun table request => (table.serve request).2) empty

@[simp] theorem after_nil : after [] = empty := rfl

@[simp] theorem after_concat (requests : List ScopeRequest) (request : ScopeRequest) :
    after (requests ++ [request]) = ((after requests).serve request).2 := by
  simp [after]

/-! ### What the operations do to the open scopes -/

variable (table : ScopeTable)

theorem scopes_eq_cons : table.scopes = table.current :: table.scopes.tail := by
  obtain ⟨symbols, inner, outermost, opened⟩ := table
  cases inner <;> rfl

@[simp] theorem scopes_withCurrent (scope : Scope) :
    (table.withCurrent scope).scopes = scope :: table.scopes.tail := by
  obtain ⟨symbols, inner, outermost, opened⟩ := table
  cases inner <;> rfl

@[simp] theorem length_scopes : table.scopes.length = table.depth := by
  simp [scopes, depth]

/-- The last scope is not closed. -/
theorem scopes_pop :
    table.pop.scopes = if table.depth = 1 then table.scopes else table.scopes.tail := by
  obtain ⟨symbols, inner, outermost, opened⟩ := table
  cases inner <;> simp [pop, scopes, depth]

theorem opened_withCurrent (scope : Scope) :
    (table.withCurrent scope).opened = table.opened := by
  obtain ⟨symbols, inner, outermost, opened⟩ := table
  cases inner <;> rfl

/-- A declaration that is not possible leaves the table as it is. -/
theorem serve_declare (name : String) (ty : Ty) (line : Int) (category : Category) :
    table.serve (.declare name ty line category) =
      (.met (table.declare? name ty line category).isSome,
        (table.declare? name ty line category).getD table) := by
  dsimp only [serve]
  cases table.declare? name ty line category with
  | none => rfl
  | some declared => rfl

variable {table} {name : String} {ty : Ty} {line : Int} {category : Category}

/-- A name is not declared where the innermost scope declares it already. -/
theorem declare?_eq_none_iff :
    table.declare? name ty line category = none ↔ table.lookupCurrent name ≠ none := by
  unfold declare? lookupCurrent
  dsimp only
  cases table.current.number? (Text.lower name) with
  | some number => simp
  | none => simp

/-- **A declaration** puts the symbol behind all others, under the next number, and an entry for it
into the innermost scope. -/
theorem declare?_eq_some {declared : ScopeTable}
    (h : table.declare? name ty line category = some declared) :
    table.lookupCurrent name = none ∧
      declared.symbols =
        table.symbols.push { name, ty, scope := table.current.name, line, category } ∧
      declared.scopes =
        ⟨table.current.name,
          table.current.entries ++ [(Text.lower name, table.symbols.size)]⟩ ::
            table.scopes.tail ∧
      declared.opened = table.opened := by
  have hnone : table.lookupCurrent name = none := by
    apply Classical.byContradiction
    intro hsome
    rw [declare?_eq_none_iff.mpr hsome] at h
    cases h
  unfold declare? at h
  dsimp only at h
  rw [show table.current.number? (Text.lower name) = none from hnone] at h
  cases h
  refine ⟨hnone, rfl, ?_, opened_withCurrent table _⟩
  rw [← scopes_withCurrent]
  rfl

/-! ### What a request can do to a table -/

/-- What a request makes of a table: it opens a scope, closes one, declares a symbol, changes one
symbol, but not in what it was declared with, or leaves the table as it is. -/
inductive Serving (table : ScopeTable) : ScopeRequest → ScopeTable → Prop where
  | opens (name : String) : table.Serving (.push name) (table.push name)
  | closes : table.Serving .pop table.pop
  | declares {name : String} {ty : Ty} {line : Int} {category : Category} {declared : ScopeTable}
      (h : table.declare? name ty line category = some declared)
      (hdeclares : table.declares (.declare name ty line category) =
        [⟨name, ty, table.current.name, line⟩]) :
      table.Serving (.declare name ty line category) declared
  | changes {request : ScopeRequest} (number : Nat) {change : Symbol → Symbol}
      (h : ∀ symbol, (change symbol).declaration = symbol.declaration)
      (hdepth : ∀ before, request.depth before = before)
      (hdeclares : table.declares request = []) :
      table.Serving request (table.modify number change)
  | keeps {request : ScopeRequest} (hdepth : ∀ before, request.depth before = before)
      (hdeclares : table.declares request = []) : table.Serving request table

/-- A change of the symbol that a name means changes that symbol, if there is one. -/
theorem serving_update (table : ScopeTable) {request : ScopeRequest} (name : String)
    {change : Symbol → Symbol} (h : ∀ symbol, (change symbol).declaration = symbol.declaration)
    (hdepth : ∀ before, request.depth before = before)
    (hdeclares : table.declares request = []) :
    table.Serving request (table.update name change) := by
  unfold update
  cases table.lookup name with
  | none => exact .keeps hdepth hdeclares
  | some number => exact .changes number h hdepth hdeclares

/-- **Every request does one of these five things.** -/
theorem serving_serve (table : ScopeTable) (request : ScopeRequest) :
    table.Serving request (table.serve request).2 := by
  cases request with
  | push name => exact .opens name
  | pop => exact .closes
  | declare name ty line category =>
    have hserve := table.serve_declare name ty line category
    cases hd : table.declare? name ty line category with
    | none =>
      rw [hd] at hserve
      rw [hserve]
      apply Serving.keeps
      · intro before
        rfl
      · unfold ScopeTable.declares
        rw [hserve]
        rfl
    | some declared =>
      rw [hd] at hserve
      rw [hserve]
      apply Serving.declares hd
      unfold ScopeTable.declares
      rw [hserve]
      rfl
  | lookup name | lookupCurrent name | lookupAll name => exact .keeps (fun _ => rfl) rfl
  | markInitialized name | countUse name | setCategory name category =>
    exact table.serving_update name (fun _ => rfl) (fun _ => rfl) rfl
  | setCategoryOf number category => exact .changes number (fun _ => rfl) (fun _ => rfl) rfl

end ScopeTable

/-! ## The model -/

/-- An open scope of the model: its name, and the place in the log of each name, in lower case, that
is declared in it. -/
structure ScopeMap where
  name : String
  place? : String → Option Nat

/-- The log of all symbols that were ever declared, the stack of the open scopes, innermost first,
and how many scopes have been opened. -/
structure ScopeModel where
  log : List Symbol
  stack : List ScopeMap
  opened : Nat

namespace ScopeModel

/-- Nothing is declared, and one scope is open. -/
def initial : ScopeModel :=
  ⟨[], [⟨"global", fun _ => none⟩], 1⟩

variable (model : ScopeModel)

/-- The place of what a name means in the innermost scope. -/
def placeCurrent? (name : String) : Option Nat :=
  model.stack.head?.bind fun scope => scope.place? (Text.lower name)

/-- The place of what a name means: that in the innermost scope that declares it. -/
def place? (name : String) : Option Nat :=
  model.stack.findSome? fun scope => scope.place? (Text.lower name)

/-- What is at a place in the log, with the place. -/
def at? (place : Option Nat) : Option NumberedSymbol :=
  place.bind fun n => model.log[n]?.map (·, n)

def push (name : String) : ScopeModel :=
  let opened := model.opened + 1
  let name := if name = "" then s!"scope_{opened}" else name
  ⟨model.log, ⟨name, fun _ => none⟩ :: model.stack, opened⟩

/-- The last scope stays open. -/
def pop : ScopeModel :=
  if model.stack.length = 1 then model else { model with stack := model.stack.tail }

/-- A new symbol goes to the end of the log, and its place into the innermost map. -/
def declare? (name : String) (ty : Ty) (line : Int) (category : Category) : Option ScopeModel :=
  match model.stack with
  | [] => none
  | scope :: below =>
    match scope.place? (Text.lower name) with
    | some _ => none
    | none =>
      let place? := Function.update scope.place? (Text.lower name) (some model.log.length)
      let symbol : Symbol := { name, ty, scope := scope.name, line, category }
      some ⟨model.log ++ [symbol], ⟨scope.name, place?⟩ :: below, model.opened⟩

/-- Changes the symbol that a name means, if it means one. -/
def update (name : String) (change : Symbol → Symbol) : ScopeModel :=
  match model.place? name with
  | some place => { model with log := model.log.modify place change }
  | none => model

def serve : ScopeRequest → ScopeReply × ScopeModel
  | .push name => (.opened (((model.push name).stack.head?.map (·.name)).getD ""), model.push name)
  | .pop => (.done, model.pop)
  | .declare name ty line category =>
    match model.declare? name ty line category with
    | some declared => (.met true, declared)
    | none => (.met false, model)
  | .lookup name => (.found (model.at? (model.place? name)), model)
  | .lookupCurrent name => (.found (model.at? (model.placeCurrent? name)), model)
  | .lookupAll name =>
    (.listed (model.log.zipIdx.filter fun s => Text.lower s.1.name == Text.lower name), model)
  | .markInitialized name =>
    (.met (model.place? name).isSome, model.update name fun s => { s with initialized := true })
  | .countUse name =>
    (.met (model.place? name).isSome, model.update name fun s => { s with uses := s.uses + 1 })
  | .setCategory name category =>
    (.met (model.place? name).isSome, model.update name fun s => { s with category })
  | .setCategoryOf place category =>
    (.done, { model with log := model.log.modify place fun s => { s with category } })

/-- The model after requests to a new one. -/
def after (requests : List ScopeRequest) : ScopeModel :=
  requests.foldl (fun model request => (model.serve request).2) initial

@[simp] theorem after_concat (requests : List ScopeRequest) (request : ScopeRequest) :
    after (requests ++ [request]) = ((after requests).serve request).2 := by
  simp [after]

end ScopeModel

/-! ## The table implements the model -/

namespace Scope

/-- The scope as a map. -/
def toMap (scope : Scope) : ScopeMap :=
  ⟨scope.name, scope.number?⟩

/-- A name that the scope does not declare has no entry in it. -/
theorem notMem_keys {scope : Scope} {key : String} (h : scope.number? key = none) :
    key ∉ scope.entries.map (·.1) := by
  intro hkey
  obtain ⟨entry, hentry, rfl⟩ := List.mem_map.mp hkey
  have hne := List.lookup_eq_none_iff.mp h entry hentry
  simp at hne

/-- An entry for a name that the scope does not declare maps the name to its number. -/
theorem number?_concat {scope : Scope} {key : String} (h : scope.number? key = none)
    (number : Nat) :
    (Scope.mk scope.name (scope.entries ++ [(key, number)])).number? =
      Function.update scope.number? key (some number) := by
  funext other
  unfold number? at h ⊢
  rw [List.lookup_append]
  by_cases hother : other = key
  · subst hother
    simp [h]
  · simp [List.lookup_cons, hother, beq_false_of_ne]

end Scope

namespace ScopeTable

/-- The table as a stack of maps and a log. -/
def toModel (table : ScopeTable) : ScopeModel :=
  ⟨table.symbols.toList, table.scopes.map Scope.toMap, table.opened⟩

variable (table : ScopeTable)

theorem place?_toModel (name : String) : table.toModel.place? name = table.lookup name := by
  simp only [ScopeModel.place?, toModel, List.findSome?_map]
  rfl

theorem stack_toModel :
    table.toModel.stack = table.current.toMap :: table.scopes.tail.map Scope.toMap := by
  show table.scopes.map Scope.toMap = _
  rw [scopes_eq_cons]
  rfl

theorem placeCurrent?_toModel (name : String) :
    table.toModel.placeCurrent? name = table.lookupCurrent name := by
  unfold ScopeModel.placeCurrent?
  rw [stack_toModel]
  rfl

theorem at?_toModel (number : Option Nat) : table.toModel.at? number = table.numbered? number := by
  simp [ScopeModel.at?, toModel, numbered?]

theorem update_toModel (name : String) (change : Symbol → Symbol) :
    table.toModel.update name change = (table.update name change).toModel := by
  unfold ScopeModel.update ScopeTable.update
  rw [place?_toModel]
  cases table.lookup name with
  | none => rfl
  | some number => simp [toModel, scopes]

theorem push_toModel (name : String) : table.toModel.push name = (table.push name).toModel := by
  unfold ScopeModel.push toModel
  simp only [scopes, push, List.cons_append, List.map_cons]
  rfl

theorem pop_toModel : table.toModel.pop = table.pop.toModel := by
  have hlength : table.toModel.stack.length = table.depth := by simp [toModel]
  unfold ScopeModel.pop
  rw [hlength]
  unfold toModel
  rw [scopes_pop]
  split
  · rfl
  · rw [List.map_tail]
    rfl

theorem declare?_toModel (name : String) (ty : Ty) (line : Int) (category : Category) :
    table.toModel.declare? name ty line category =
      (table.declare? name ty line category).map toModel := by
  unfold ScopeModel.declare?
  rw [stack_toModel]
  dsimp only [Scope.toMap]
  cases hdeclared : table.declare? name ty line category with
  | none =>
    obtain ⟨number, hnumber⟩ := Option.ne_none_iff_exists'.mp (declare?_eq_none_iff.mp hdeclared)
    rw [show table.current.number? (Text.lower name) = some number from hnumber]
    rfl
  | some declared =>
    obtain ⟨hnone, hsymbols, hscopes, hopened⟩ := declare?_eq_some hdeclared
    replace hnone : table.current.number? (Text.lower name) = none := hnone
    rw [hnone]
    simp only [Option.map_some, toModel, hsymbols, hscopes, hopened, List.map_cons, Scope.toMap,
      Scope.number?_concat hnone, Array.toList_push, Array.length_toList]

/-- **The table serves every request as the model does.** -/
theorem serve_toModel (request : ScopeRequest) :
    table.toModel.serve request =
      ((table.serve request).1, (table.serve request).2.toModel) := by
  cases request with
  | push name =>
    simp only [ScopeModel.serve, push_toModel, stack_toModel]
    rfl
  | pop => simp only [ScopeModel.serve, pop_toModel, serve]
  | declare name ty line category =>
    simp only [ScopeModel.serve, serve, declare?_toModel]
    cases table.declare? name ty line category with
    | none => rfl
    | some declared => rfl
  | lookup name => simp only [ScopeModel.serve, serve, place?_toModel, at?_toModel]
  | lookupCurrent name => simp only [ScopeModel.serve, serve, placeCurrent?_toModel, at?_toModel]
  | lookupAll name => rfl
  | markInitialized name | countUse name | setCategory name category =>
    simp only [ScopeModel.serve, serve, place?_toModel, update_toModel]
    rfl
  | setCategoryOf number category =>
    simp [ScopeModel.serve, serve, modify, toModel, scopes]

/-- **After the same requests, the table is the model, as a stack of maps and a log.** -/
theorem toModel_after (requests : List ScopeRequest) :
    (after requests).toModel = ScopeModel.after requests := by
  induction requests using List.reverseRecOn with
  | nil => rfl
  | append_singleton requests request ih =>
    rw [after_concat, ScopeModel.after_concat, ← ih, serve_toModel]

end ScopeTable
end PascalCheck
