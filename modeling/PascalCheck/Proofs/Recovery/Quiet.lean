import PascalCheck.Analysis.Summary
import PascalCheck.Proofs.Recovery.Names
import PascalCheck.Proofs.Typing.Infers

/-! # Steps that find no error

The names that may mean something of the type of errors are given as `faulty`; in a state nothing
else means something of that type (`AnalysisState.ErrorsWithin`).  A step of the analysis never
takes back an error that was found, and unless one has been found when it is over, it keeps this
property (`Quietly`). -/
namespace PascalCheck

variable {faulty : String → Prop}

/-! ## States -/

/-- The names for its type of which one may mean something of the type of errors. -/
def Expr.IsFaulty (faulty : String → Prop) (e : Expr) : Prop :=
  ∃ name ∈ e.typeNames, faulty (Text.lower name)

/-- What has the type of errors under a name in an open scope has a faulty name. -/
def ScopeTable.ErrorsWithin (faulty : String → Prop) (table : ScopeTable) : Prop :=
  ∀ scope ∈ table.scopes, ∀ entry ∈ scope.entries,
    ∃ symbol, table.symbols[entry.2]? = some symbol ∧ (symbol.ty = .error → faulty entry.1)

/-- Nothing but a faulty name means something of the type of errors. -/
structure AnalysisState.ErrorsWithin (faulty : String → Prop) (s : AnalysisState) : Prop where
  table : s.table.ErrorsWithin faulty
  routines : ∀ r ∈ s.routines, r.result = some .error → faulty r.key

namespace ScopeTable
variable {table : ScopeTable}

/-- A symbol that is found with the type of errors has a faulty name. -/
theorem ErrorsWithin.find? (h : table.ErrorsWithin faulty) {name : String} {symbol : Symbol}
    (hs : table.find? name = some symbol) (ht : symbol.ty = .error) : faulty (Text.lower name) := by
  obtain ⟨number, hlookup, hnumber⟩ := Option.bind_eq_some_iff.mp hs
  obtain ⟨scope, hscope, hentry⟩ := List.exists_of_findSome?_eq_some hlookup
  obtain ⟨before, after, hsplit, -⟩ := List.lookup_eq_some_iff.mp hentry
  obtain ⟨found, hfound, hfaulty⟩ := h scope hscope (Text.lower name, number) (by simp [hsplit])
  rw [hnumber] at hfound
  cases hfound
  exact hfaulty ht

/-- Changes that leave the types of symbols alone do not matter. -/
theorem ErrorsWithin.update (h : table.ErrorsWithin faulty) (name : String)
    {change : Symbol → Symbol} (hty : ∀ symbol, (change symbol).ty = symbol.ty) :
    (table.update name change).ErrorsWithin faulty := by
  intro scope hscope entry hentry
  rw [scopes_update] at hscope
  obtain ⟨symbol, hsymbol, hfaulty⟩ := h scope hscope entry hentry
  unfold ScopeTable.update
  split
  next number _ =>
    -- The entry may lead to the symbol that is changed, or to another.
    show ∃ found, (table.symbols.modify number change)[entry.2]? = some found ∧ _
    rw [Array.getElem?_modify, hsymbol]
    split
    · exact ⟨_, rfl, by rwa [hty]⟩
    · exact ⟨_, rfl, hfaulty⟩
  next => exact ⟨symbol, hsymbol, hfaulty⟩

/-- A new scope has no symbols. -/
theorem ErrorsWithin.push (h : table.ErrorsWithin faulty) (name : String) :
    (table.push name).ErrorsWithin faulty := by
  intro scope hscope entry hentry
  rcases List.mem_cons.mp hscope with rfl | hold
  · cases hentry
  · exact h scope hold entry hentry

theorem ErrorsWithin.pop (h : table.ErrorsWithin faulty) : table.pop.ErrorsWithin faulty := by
  intro scope hscope
  refine h scope ?_
  rcases List.mem_append.mp hscope with hinner | houter
  · exact List.mem_append_left _ (List.mem_of_mem_tail hinner)
  · exact List.mem_append_right _ houter

theorem mem_scopes_current (table : ScopeTable) : table.current ∈ table.scopes := by
  obtain ⟨symbols, inner, outermost, opened⟩ := table
  cases inner <;> simp [current, scopes]

/-- Only the current scope is exchanged. -/
theorem mem_of_mem_scopes_withCurrent {scope other : Scope}
    (h : other ∈ (table.withCurrent scope).scopes) : other = scope ∨ other ∈ table.scopes := by
  obtain ⟨symbols, inner, outermost, opened⟩ := table
  cases inner with
  | nil => exact .inl (List.mem_singleton.mp h)
  | cons first rest =>
    rcases List.mem_cons.mp h with rfl | hrest
    · exact .inl rfl
    · exact .inr (List.mem_cons_of_mem _ hrest)

/-- A declaration keeps within the faulty names if it is that of a faulty name or of another type.
-/
theorem ErrorsWithin.declare? (h : table.ErrorsWithin faulty) {name : String} {ty : Ty}
    {line : Int} {category : Category} {table' : ScopeTable}
    (hd : table.declare? name ty line category = some table')
    (ht : ty = .error → faulty (Text.lower name)) : table'.ErrorsWithin faulty := by
  have hold : ∀ scope ∈ table.scopes, ∀ entry ∈ scope.entries, ∀ symbol : Symbol,
      ∃ found, (table.symbols.push symbol)[entry.2]? = some found ∧
        (found.ty = .error → faulty entry.1) := by
    intro scope hscope entry hentry symbol
    obtain ⟨found, hfound, hfaulty⟩ := h scope hscope entry hentry
    obtain ⟨hlt, -⟩ := Array.getElem?_eq_some_iff.mp hfound
    exact ⟨found, by rw [Array.getElem?_push_lt hlt, ← hfound, Array.getElem?_eq_getElem hlt],
      hfaulty⟩
  unfold ScopeTable.declare? at hd
  dsimp only at hd
  split at hd
  · cases hd
  · cases hd
    intro scope hscope entry hentry
    rcases mem_of_mem_scopes_withCurrent hscope with rfl | hscope
    · rcases List.mem_append.mp hentry with hentry | hnew
      · exact hold _ table.mem_scopes_current entry hentry _
      · obtain rfl := List.mem_singleton.mp hnew
        exact ⟨_, Array.getElem?_push_size, ht⟩
    · exact hold scope hscope entry hentry _

end ScopeTable

namespace DeclaredRoutine

/-- The routines are the entered one and those of before. -/
theorem mem_of_mem_insert {routine r : DeclaredRoutine} {routines : List DeclaredRoutine}
    (h : r ∈ routine.insert routines) : r = routine ∨ r ∈ routines := by
  induction routines with
  | nil => exact .inl (List.mem_singleton.mp h)
  | cons other rest ih =>
    unfold insert at h
    split at h
    · rcases List.mem_cons.mp h with rfl | hrest
      · exact .inl rfl
      · exact .inr (List.mem_cons_of_mem _ hrest)
    · rcases List.mem_cons.mp h with rfl | hrest
      · exact .inr List.mem_cons_self
      · exact (ih hrest).imp_right (List.mem_cons_of_mem _)

end DeclaredRoutine

theorem AnalysisState.errorsWithin_empty :
    ({} : AnalysisState).ErrorsWithin faulty where
  table := by
    intro scope hscope entry hentry
    obtain rfl := List.mem_singleton.mp hscope
    cases hentry
  routines := fun r hr => nomatch hr

namespace Analysis

/-- The step takes back no error; and if none has been found when it is over, the condition holds
and only faulty names meant something of the type of errors before it, then only these do after it,
and its value has the property. -/
def Quietly (faulty : String → Prop) (condition : Prop) {α : Type} (m : Analysis α)
    (property : α → Prop) : Prop :=
  ∀ s a s', StateT.run m s = .ok (a, s') → s.errors <+: s'.errors ∧
    (s'.errors = [] → condition → s.ErrorsWithin faulty →
      s'.ErrorsWithin faulty ∧ property a)

/-- What a step does of which nothing needs to be known but that it is quiet. -/
abbrev anything {α : Type} (_ : α) : Prop := True

namespace Quietly
variable {α β : Type} {c c' : Prop} {m : Analysis α} {P Q : α → Prop} {R : β → Prop}

theorem pure {a : α} (h : c → P a) : Quietly faulty c (pure a) P := by
  intro s b s' hrun
  cases hrun
  exact ⟨List.prefix_refl _, fun _ hc hs => ⟨hs, h hc⟩⟩

theorem throw (fault : Fault) : Quietly faulty c (throw fault) P :=
  fun _ _ _ hrun => nomatch hrun

/-- The condition of the second step says what the first one yields. -/
theorem bind {f : α → Analysis β} (h : Quietly faulty c m P)
    (hf : ∀ a, Quietly faulty (c ∧ P a) (f a) R) : Quietly faulty c (m >>= f) R := by
  intro s b s'' hrun
  obtain ⟨a, s', hm, hfa⟩ := run_bind_eq_ok.mp hrun
  obtain ⟨hle, hkeeps⟩ := h s a s' hm
  obtain ⟨hle', hkeeps'⟩ := hf a s' b s'' hfa
  refine ⟨hle.trans hle', fun hquiet hc hs => ?_⟩
  -- No error was found in the middle either, since none is taken back.
  have hmiddle : s'.errors = [] := List.prefix_nil.mp (hquiet ▸ hle')
  obtain ⟨hs', ha⟩ := hkeeps hmiddle hc hs
  exact hkeeps' hquiet ⟨hc, ha⟩ hs'

/-- More may be assumed, and less concluded. -/
theorem weaken (h : Quietly faulty c m P) (hc : c' → c) (hp : ∀ a, c' → P a → Q a) :
    Quietly faulty c' m Q := by
  intro s a s' hrun
  obtain ⟨hle, hkeeps⟩ := h s a s' hrun
  refine ⟨hle, fun hquiet hc' hs => ?_⟩
  obtain ⟨hs', ha⟩ := hkeeps hquiet (hc hc') hs
  exact ⟨hs', hp a hc' ha⟩

theorem ite {p : Prop} [Decidable p] {n : Analysis α} (hm : Quietly faulty c m P)
    (hn : Quietly faulty c n P) : Quietly faulty c (if p then m else n) P := by
  split
  · exact hm
  · exact hn

/-- A change that finds nothing is quiet if it keeps within the faulty names. -/
theorem modify {change : AnalysisState → AnalysisState}
    (herrors : ∀ s, (change s).errors = s.errors)
    (hkeeps : ∀ s, c → s.ErrorsWithin faulty → (change s).ErrorsWithin faulty) :
    Quietly faulty c (modify change) anything := by
  intro s a s' hrun
  cases hrun
  exact ⟨herrors s ▸ List.prefix_refl _, fun _ hc hs => ⟨hkeeps s hc hs, trivial⟩⟩

end Quietly

variable {c : Prop}

/-- A report changes no meaning of a name; if it is an error, nothing is claimed any more. -/
theorem quietly_report (line : Int) (finding : Finding) :
    Quietly faulty c (report line finding) anything := by
  intro s a s' hrun
  cases hrun
  rw [errors_report]
  exact ⟨List.prefix_append _ _, fun _ _ hs => ⟨⟨hs.table, hs.routines⟩, trivial⟩⟩

/-- Where an error is reported, anything may be said of a run without errors. -/
theorem quietly_error {α : Type} (line : Int) {finding : Finding} (h : finding.severity = .error)
    (a : α) (P : α → Prop) : Quietly faulty c (do report line finding; return a) P := by
  intro s b s' hrun
  cases hrun
  rw [errors_report, h]
  exact ⟨List.prefix_append _ _, fun hquiet => by simp at hquiet⟩

theorem quietly_changeTable {change : ScopeTable → ScopeTable}
    (h : ∀ table, c → table.ErrorsWithin faulty → (change table).ErrorsWithin faulty) :
    Quietly faulty c (changeTable change) anything :=
  .modify (fun _ => rfl) fun s hc hs => ⟨h s.table hc hs.table, hs.routines⟩

theorem quietly_markInitialized (name : String) :
    Quietly faulty c (changeTable (·.markInitialized name)) anything :=
  quietly_changeTable fun _ _ h => h.update name fun _ => rfl

theorem quietly_countUse (name : String) :
    Quietly faulty c (changeTable (·.countUse name)) anything :=
  quietly_changeTable fun _ _ h => h.update name fun _ => rfl

theorem quietly_setCategory (name : String) (category : Category) :
    Quietly faulty c (changeTable (·.setCategory name category)) anything :=
  quietly_changeTable fun _ _ h => h.update name fun _ => rfl

/-- A symbol is looked up without a change, and its type is faulty only with its name. -/
theorem quietly_symbol? (name : String) :
    Quietly faulty c (symbol? name) fun found =>
      ∀ symbol, found = some symbol → symbol.ty = .error → faulty (Text.lower name) := by
  intro s a s' hrun
  cases hrun
  exact ⟨List.prefix_refl _, fun _ _ hs => ⟨hs, fun symbol hsymbol => hs.table.find? hsymbol⟩⟩

/-- The same of a routine and its result. -/
theorem quietly_routine? (name : String) :
    Quietly faulty c (routine? name) fun found =>
      ∀ routine, found = some routine → routine.result = some .error →
        faulty (Text.lower name) := by
  intro s a s' hrun
  cases hrun
  refine ⟨List.prefix_refl _, fun _ _ hs => ⟨hs, fun routine hroutine hresult => ?_⟩⟩
  have hkey := List.find?_some hroutine
  rw [← beq_iff_eq.mp hkey]
  exact hs.routines routine (List.mem_of_find?_eq_some hroutine) hresult

end Analysis
end PascalCheck
