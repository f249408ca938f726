import PascalCheck.Proofs.Scope.History

/-! # What an inner scope leaves as it was

Between the opening of a scope and its closing a table may be asked for anything: for more scopes,
for declarations that hide outer names, for changes of outer symbols.  As long as the requests close
the scopes that they open and no other (`IsBalanced`), the outer scopes stay below theirs
(`scopes_within`), and when the scope is closed the table has the scopes that it had before, and
all of its symbols, with what they were declared with (`ScopeTable.Resumes`). -/
namespace PascalCheck

namespace ScopeRequest

/-- How many scopes are open that requests have opened, after one more request; nothing if that
closes a scope that they have not opened. -/
def own? (count : Nat) : ScopeRequest → Option Nat
  | push _ => some (count + 1)
  | pop => if count = 0 then none else some (count - 1)
  | _ => some count

/-- The requests close the scopes that they open, and no other. -/
def IsBalanced (requests : List ScopeRequest) : Prop :=
  requests.foldlM own? 0 = some 0

/-- A request that does not change the depth opens and closes nothing. -/
theorem own?_of_depth {request : ScopeRequest} (h : ∀ before, request.depth before = before)
    (count : Nat) : request.own? count = some count := by
  cases request with
  | push name => exact absurd (h 0) (Nat.succ_ne_self 0)
  | pop => exact absurd (h 2) (by decide)
  | _ => rfl

end ScopeRequest

/-- What may become of a symbol: it keeps what it was declared with, a value that was stored stays
stored, and no use is taken back. -/
structure Symbol.IsLater (earlier later : Symbol) : Prop where
  declaration : later.declaration = earlier.declaration
  initialized : earlier.initialized = true → later.initialized = true
  uses : earlier.uses ≤ later.uses

namespace Symbol.IsLater
variable {first second third : Symbol}

theorem refl (symbol : Symbol) : symbol.IsLater symbol :=
  ⟨rfl, id, Nat.le_refl _⟩

theorem trans (h : first.IsLater second) (h' : second.IsLater third) : first.IsLater third :=
  ⟨h'.declaration.trans h.declaration, fun hi => h'.initialized (h.initialized hi),
    Nat.le_trans h.uses h'.uses⟩

end Symbol.IsLater

namespace ScopeTable
variable {table next : ScopeTable} {request : ScopeRequest}

/-! ## Symbols -/

/-- The symbols of the table are those of the later one under the same numbers. -/
def KeepsSymbols (table later : ScopeTable) : Prop :=
  ∀ (number : Nat) (symbol : Symbol), table.symbols[number]? = some symbol →
    ∃ changed, later.symbols[number]? = some changed ∧ symbol.IsLater changed

theorem KeepsSymbols.refl (table : ScopeTable) : table.KeepsSymbols table :=
  fun _ symbol hsymbol => ⟨symbol, hsymbol, .refl symbol⟩

theorem KeepsSymbols.trans {later : ScopeTable} (h : table.KeepsSymbols next)
    (h' : next.KeepsSymbols later) : table.KeepsSymbols later := by
  intro number symbol hsymbol
  obtain ⟨changed, hchanged, hlater⟩ := h number symbol hsymbol
  obtain ⟨last, hlast, hlater'⟩ := h' number changed hchanged
  exact ⟨last, hlast, hlater.trans hlater'⟩

theorem KeepsSymbols.of_changesOnly {number : Option Nat} {change : Symbol → Symbol}
    (h : table.ChangesOnly next number change)
    (hlater : ∀ symbol : Symbol, symbol.IsLater (change symbol)) :
    table.KeepsSymbols next := by
  intro n symbol hsymbol
  rw [h.2.2 n, hsymbol]
  split
  · exact ⟨_, rfl, hlater symbol⟩
  · exact ⟨_, rfl, .refl symbol⟩

/-- **No request takes a symbol away**, or any of what it was declared with. -/
theorem keepsSymbols_serve (table : ScopeTable) (request : ScopeRequest) :
    table.KeepsSymbols (table.serve request).2 := by
  cases request with
  | push name | pop | lookup name | lookupCurrent name | lookupAll name => exact .refl table
  | declare name ty line category =>
    rw [serve_declare]
    cases hd : table.declare? name ty line category with
    | none => exact .refl table
    | some declared =>
      obtain ⟨-, hsymbols, -⟩ := declare?_eq_some hd
      intro number symbol hsymbol
      obtain ⟨hlt, hget⟩ := Array.getElem?_eq_some_iff.mp hsymbol
      refine ⟨symbol, ?_, .refl symbol⟩
      rw [Option.getD_some, hsymbols, Array.getElem?_push_lt hlt, hget]
  | markInitialized name =>
    exact .of_changesOnly (changesOnly_update table name _) fun symbol =>
      ⟨rfl, fun _ => rfl, Nat.le_refl _⟩
  | countUse name =>
    exact .of_changesOnly (changesOnly_update table name _) fun symbol =>
      ⟨rfl, id, Nat.le_succ _⟩
  | setCategory name category =>
    exact .of_changesOnly (changesOnly_update table name _) fun symbol =>
      ⟨rfl, id, Nat.le_refl _⟩
  | setCategoryOf number category =>
    exact .of_changesOnly (changesOnly_modify table number _) fun symbol =>
      ⟨rfl, id, Nat.le_refl _⟩

theorem keepsSymbols_after (requests more : List ScopeRequest) :
    (after requests).KeepsSymbols (after (requests ++ more)) := by
  induction more using List.reverseRecOn with
  | nil =>
    rw [List.append_nil]
    exact .refl _
  | append_singleton more request ih =>
    rw [← List.append_assoc, after_concat]
    exact ih.trans (keepsSymbols_serve _ request)

/-! ## Scopes -/

/-- A request that closes no scope but an own one leaves those below the own ones. -/
theorem scopes_of_serving {own outer : List Scope} {count count' : Nat}
    (h : table.Serving request next) (hscopes : table.scopes = own ++ outer)
    (hlength : own.length = count + 1) (hcount : request.own? count = some count') :
    ∃ own', next.scopes = own' ++ outer ∧ own'.length = count' + 1 := by
  cases h with
  | opens name =>
    cases hcount
    refine ⟨(table.push name).current :: own, ?_, congrArg (· + 1) hlength⟩
    rw [List.cons_append, ← hscopes]
    rfl
  | closes =>
    obtain ⟨hpositive, rfl⟩ : count ≠ 0 ∧ count - 1 = count' := by
      simpa [ScopeRequest.own?] using hcount
    have hdepth : table.depth ≠ 1 := by
      rw [← length_scopes, hscopes, List.length_append]
      omega
    cases own with
    | nil => cases hlength
    | cons innermost rest =>
      rw [List.length_cons] at hlength
      refine ⟨rest, ?_, by omega⟩
      rw [scopes_pop, if_neg hdepth, hscopes, List.cons_append, List.tail_cons]
  | @declares name _ _ _ _ hd _ =>
    cases hcount
    obtain ⟨-, -, hnext, -⟩ := declare?_eq_some hd
    cases own with
    | nil => cases hlength
    | cons innermost rest =>
      let filled : Scope := ⟨table.current.name,
        table.current.entries ++ [(Text.lower name, table.symbols.size)]⟩
      refine ⟨filled :: rest, ?_, hlength⟩
      rw [hnext, hscopes, List.cons_append, List.tail_cons, List.cons_append]
  | changes _ _ hdepth _ =>
    rw [ScopeRequest.own?_of_depth hdepth] at hcount
    cases hcount
    exact ⟨own, hscopes, hlength⟩
  | keeps hdepth _ =>
    rw [ScopeRequest.own?_of_depth hdepth] at hcount
    cases hcount
    exact ⟨own, hscopes, hlength⟩

/-- **Inside a scope the outer ones lie below**, whatever is asked for, until the scope itself is
closed. -/
theorem scopes_within (before : List ScopeRequest) (name : String) {inner : List ScopeRequest}
    {count : Nat} (h : inner.foldlM ScopeRequest.own? 0 = some count) :
    ∃ own, (after (before ++ .push name :: inner)).scopes = own ++ (after before).scopes ∧
      own.length = count + 1 := by
  induction inner using List.reverseRecOn generalizing count with
  | nil =>
    cases h
    rw [after_concat]
    exact ⟨[((after before).push name).current], rfl, rfl⟩
  | append_singleton inner request ih =>
    rw [List.foldlM_append] at h
    obtain ⟨earlier, hearlier, hrequest⟩ := Option.bind_eq_some_iff.mp h
    rw [List.foldlM_cons] at hrequest
    obtain ⟨last, hlast, hfinal⟩ := Option.bind_eq_some_iff.mp hrequest
    cases hfinal
    -- What the requests have opened so far lies on top, and the next one acts on that alone.
    obtain ⟨own, hscopes, hlength⟩ := ih hearlier
    rw [← List.cons_append, ← List.append_assoc, after_concat]
    exact scopes_of_serving (serving_serve _ request) hscopes hlength hlast

/-! ## Behind an inner scope -/

/-- What a table is again when a scope is closed that was opened in it: its scopes, and so what
names mean, are the same, and its symbols are there, with more behind them. -/
structure Resumes (table closed : ScopeTable) : Prop where
  scopes : closed.scopes = table.scopes
  lookup : ∀ name, closed.lookup name = table.lookup name
  lookupCurrent : ∀ name, closed.lookupCurrent name = table.lookupCurrent name
  appended : ∃ more, closed.symbols.toList.map Symbol.declaration =
    table.symbols.toList.map Symbol.declaration ++ more
  symbols : table.KeepsSymbols closed

/-- **An inner scope leaves the outer ones as they were.** -/
theorem resumes_behind_scope (before : List ScopeRequest) (name : String)
    {inner : List ScopeRequest} (h : ScopeRequest.IsBalanced inner) :
    (after before).Resumes (after (before ++ .push name :: inner ++ [.pop])) := by
  -- Only the scope that was pushed first is left above the outer ones when the last request comes.
  obtain ⟨own, hwithin, hlength⟩ := scopes_within before name h
  obtain ⟨innermost, rfl⟩ := List.length_eq_one_iff.mp hlength
  have hscopes : (after (before ++ .push name :: inner ++ [.pop])).scopes =
      (after before).scopes := by
    have hdepth : (after (before ++ .push name :: inner)).depth ≠ 1 := by
      rw [← length_scopes, hwithin, List.length_append, length_scopes (after before), depth]
      simp
    rw [after_concat]
    show (after (before ++ .push name :: inner)).pop.scopes = _
    rw [scopes_pop, if_neg hdepth, hwithin]
    rfl
  refine ⟨hscopes, ?_, ?_, ?_, ?_⟩
  · intro looked
    unfold ScopeTable.lookup
    rw [hscopes]
  · intro looked
    have hcurrent := hscopes
    rw [scopes_eq_cons, scopes_eq_cons (after before)] at hcurrent
    unfold ScopeTable.lookupCurrent
    rw [List.head_eq_of_cons_eq hcurrent]
  · rw [map_declaration_after, map_declaration_after, List.append_assoc]
    exact ⟨_, declaredFrom_append empty before _⟩
  · rw [List.append_assoc]
    exact keepsSymbols_after before _

/-- A scope in which outer names are hidden, used and stored into, with another scope in it. -/
theorem resumes_behind_scope_hiding :
    ScopeRequest.IsBalanced
        [.declare "X" .real 2 .variable, .countUse "y", .push "", .markInitialized "y", .pop] ∧
      (after [.declare "x" .integer 1 .variable, .declare "y" .char 1 .variable]).Resumes
        (after ([.declare "x" .integer 1 .variable, .declare "y" .char 1 .variable] ++
          .push "p" :: [.declare "X" .real 2 .variable, .countUse "y", .push "",
            .markInitialized "y", .pop] ++ [.pop])) :=
  have hbalanced : ScopeRequest.IsBalanced
      [.declare "X" .real 2 .variable, .countUse "y", .push "", .markInitialized "y", .pop] := rfl
  ⟨hbalanced, resumes_behind_scope _ _ hbalanced⟩

end ScopeTable
end PascalCheck
