import Mathlib.Data.List.Nodup
import Mathlib.Data.List.Perm.Basic
import PascalCheck.Proofs.Scope.Requests

/-! # Consistency of a table of scopes

The numbers in the open scopes lead to symbols, and to each symbol at most once.  This is what ties
the two halves of a table together, and every request keeps it (`IsConsistent.of_serving`). -/
namespace PascalCheck
namespace ScopeTable

/-- All numbers in the open scopes, those of the innermost scope first. -/
def openNumbers (table : ScopeTable) : List Nat :=
  table.scopes.flatMap fun scope => scope.entries.map (·.2)

/-- The table holds together: each entry of an open scope leads to a symbol of that scope under its
name in lower case, no scope has two entries for a name, no symbol has two entries, and the last
open scope is the global one. -/
structure IsConsistent (table : ScopeTable) : Prop where
  leads : ∀ scope ∈ table.scopes, ∀ entry ∈ scope.entries, ∃ symbol,
    table.symbols[entry.2]? = some symbol ∧ symbol.scope = scope.name ∧
      Text.lower symbol.name = entry.1
  keys : ∀ scope ∈ table.scopes, (scope.entries.map (·.1)).Nodup
  numbers : table.openNumbers.Nodup
  last : table.scopes.getLast?.map (·.name) = some "global"

namespace IsConsistent

theorem initial : empty.IsConsistent where
  leads := by
    intro scope hscope entry hentry
    obtain rfl := List.mem_singleton.mp hscope
    cases hentry
  keys := by
    intro scope hscope
    obtain rfl := List.mem_singleton.mp hscope
    exact List.nodup_nil
  numbers := List.nodup_nil
  last := rfl

variable {table table' : ScopeTable}

/-- The number in an entry is that of a symbol. -/
theorem lt_size (h : table.IsConsistent) {number : Nat} (hn : number ∈ table.openNumbers) :
    number < table.symbols.size := by
  obtain ⟨scope, hscope, hentries⟩ := List.mem_flatMap.mp hn
  obtain ⟨entry, hentry, rfl⟩ := List.mem_map.mp hentries
  obtain ⟨symbol, hsymbol, -⟩ := h.leads scope hscope entry hentry
  exact (Array.getElem?_eq_some_iff.mp hsymbol).1

/-- What is not part of a declaration may change. -/
theorem of_change (h : table.IsConsistent) (hscopes : table'.scopes = table.scopes)
    (hsymbols : ∀ (number : Nat) (symbol : Symbol), table.symbols[number]? = some symbol →
      ∃ symbol' : Symbol, table'.symbols[number]? = some symbol' ∧ symbol'.scope = symbol.scope ∧
        symbol'.name = symbol.name) :
    table'.IsConsistent where
  leads := by
    intro scope hscope entry hentry
    rw [hscopes] at hscope
    obtain ⟨symbol, hsymbol, howner, hname⟩ := h.leads scope hscope entry hentry
    obtain ⟨symbol', hsymbol', howner', hname'⟩ := hsymbols entry.2 symbol hsymbol
    exact ⟨symbol', hsymbol', howner'.trans howner, hname' ▸ hname⟩
  keys := hscopes ▸ h.keys
  numbers := by
    unfold openNumbers
    rw [hscopes]
    exact h.numbers
  last := hscopes ▸ h.last

theorem push (h : table.IsConsistent) (name : String) : (table.push name).IsConsistent where
  leads := by
    intro scope hscope entry hentry
    rcases List.mem_cons.mp hscope with rfl | hold
    · cases hentry
    · exact h.leads scope hold entry hentry
  keys := by
    intro scope hscope
    rcases List.mem_cons.mp hscope with rfl | hold
    · exact List.nodup_nil
    · exact h.keys scope hold
  numbers := h.numbers
  last := by
    show (List.getLast? (_ :: table.scopes)).map (·.name) = _
    rw [scopes_eq_cons, List.getLast?_cons_cons, ← scopes_eq_cons]
    exact h.last

theorem pop (h : table.IsConsistent) : table.pop.IsConsistent := by
  have hscopes := table.scopes_pop
  split at hscopes
  next => exact h.of_change hscopes fun number symbol hsymbol => ⟨symbol, hsymbol, rfl, rfl⟩
  next hdepth =>
    have hmem : ∀ scope ∈ table.pop.scopes, scope ∈ table.scopes := by
      intro scope hscope
      rw [hscopes] at hscope
      exact List.mem_of_mem_tail hscope
    refine ⟨fun scope hscope => h.leads scope (hmem scope hscope),
      fun scope hscope => h.keys scope (hmem scope hscope), ?_, ?_⟩
    · have hnumbers := h.numbers
      unfold openNumbers at hnumbers ⊢
      rw [scopes_eq_cons, List.flatMap_cons] at hnumbers
      rw [hscopes]
      exact (List.nodup_append.mp hnumbers).2.1
    · -- The scope that is closed is not the last one.
      have hlast := h.last
      rw [hscopes]
      have hlength : table.scopes.tail ≠ [] := by
        intro hnil
        have hone : table.depth = 1 := by
          rw [← length_scopes, scopes_eq_cons, hnil]
          rfl
        exact hdepth hone
      rw [scopes_eq_cons] at hlast
      rwa [List.getLast?_cons_of_ne_nil hlength] at hlast

theorem declare (h : table.IsConsistent) {name : String} {ty : Ty} {line : Int}
    {category : Category} (hd : table.declare? name ty line category = some table') :
    table'.IsConsistent := by
  obtain ⟨hnone, hsymbols, hscopes, -⟩ := declare?_eq_some hd
  have hcurrent : table.current ∈ table.scopes := by
    rw [scopes_eq_cons]
    exact List.mem_cons_self
  have hold : ∀ scope ∈ table.scopes, ∀ entry ∈ scope.entries, ∃ symbol,
      table'.symbols[entry.2]? = some symbol ∧ symbol.scope = scope.name ∧
        Text.lower symbol.name = entry.1 := by
    intro scope hscope entry hentry
    obtain ⟨symbol, hsymbol, hrest⟩ := h.leads scope hscope entry hentry
    obtain ⟨hlt, -⟩ := Array.getElem?_eq_some_iff.mp hsymbol
    exact ⟨symbol, by rw [hsymbols, Array.getElem?_push_lt hlt, ← hsymbol,
      Array.getElem?_eq_getElem hlt], hrest⟩
  constructor
  · intro scope hscope entry hentry
    rw [hscopes] at hscope
    rcases List.mem_cons.mp hscope with rfl | hbelow
    · rcases List.mem_append.mp hentry with hentry | hnew
      · exact hold table.current hcurrent entry hentry
      · obtain rfl := List.mem_singleton.mp hnew
        refine ⟨{ name, ty, scope := table.current.name, line, category }, ?_, rfl, rfl⟩
        rw [hsymbols, Array.getElem?_push_size]
    · exact hold scope (List.mem_of_mem_tail hbelow) entry hentry
  · intro scope hscope
    rw [hscopes] at hscope
    rcases List.mem_cons.mp hscope with rfl | hbelow
    · show ((table.current.entries ++ [(Text.lower name, table.symbols.size)]).map (·.1)).Nodup
      rw [List.map_append, List.nodup_append_comm]
      apply List.nodup_cons.mpr
      exact ⟨Scope.notMem_keys hnone, h.keys table.current hcurrent⟩
    · exact h.keys scope (List.mem_of_mem_tail hbelow)
  · -- The number of the new symbol is larger than all others.
    have hnew : table.symbols.size ∉ table.openNumbers := fun hmem =>
      Nat.lt_irrefl _ (h.lt_size hmem)
    have hnumbers := h.numbers
    unfold openNumbers at hnew hnumbers ⊢
    rw [hscopes]
    rw [scopes_eq_cons] at hnew hnumbers
    simp only [List.flatMap_cons, List.map_append, List.map_cons, List.map_nil,
      List.append_assoc, List.cons_append, List.nil_append] at hnew hnumbers ⊢
    exact List.nodup_middle.mpr (List.nodup_cons.mpr ⟨hnew, hnumbers⟩)
  · -- The innermost scope keeps its name, also where it is the last one.
    have hlast := h.last
    rw [← List.getLast?_map, scopes_eq_cons] at hlast
    rw [hscopes, ← List.getLast?_map]
    exact hlast

/-- A change of one symbol that leaves what it was declared with. -/
theorem modify (h : table.IsConsistent) (number : Nat) {change : Symbol → Symbol}
    (hchange : ∀ symbol, (change symbol).declaration = symbol.declaration) :
    (table.modify number change).IsConsistent := by
  refine h.of_change rfl ?_
  intro other symbol hsymbol
  show ∃ symbol', (table.symbols.modify number change)[other]? = some symbol' ∧ _
  rw [Array.getElem?_modify]
  by_cases hother : number = other
  · refine ⟨change symbol, ?_, congrArg SymbolDeclaration.scope (hchange symbol),
      congrArg SymbolDeclaration.name (hchange symbol)⟩
    rw [if_pos hother, hsymbol]
    rfl
  · exact ⟨symbol, by rw [if_neg hother, hsymbol], rfl, rfl⟩

/-- **Every request keeps a table consistent.** -/
theorem of_serving (h : table.IsConsistent) {request : ScopeRequest}
    (hserving : table.Serving request table') : table'.IsConsistent := by
  cases hserving with
  | opens name => exact h.push name
  | closes => exact h.pop
  | declares hd _ => exact h.declare hd
  | changes number hchange _ _ => exact h.modify number hchange
  | keeps _ _ => exact h

end IsConsistent

/-- A table is consistent whatever it has been asked for. -/
theorem isConsistent_after (requests : List ScopeRequest) : (after requests).IsConsistent := by
  induction requests using List.reverseRecOn with
  | nil => exact .initial
  | append_singleton requests request ih =>
    rw [after_concat]
    exact ih.of_serving (serving_serve _ request)

end ScopeTable
end PascalCheck
