import PascalCheck.Proofs.Check.CounterProtection

/-! # What is stored into constants

A value is stored into what a name means by an assignment, by reading, and by a loop that counts.  A
constant is refused by the assignment and by the loop, each with an error of its own in the bag;
reading has no such check, so that a constant may be read into without an error, unless it counts a
loop around (`RefusesConstants`).  **This is how every source is checked**
(`ofSource_refusesConstants`). -/
namespace PascalCheck

namespace Action

/-- What a step stores into, and on which line.  A loop without a counter stores nothing. -/
def stored? : Action → Option (String × Int)
  | target n line | read _ n line => some (n, line)
  | counter n line => if n = "" then none else some (n, line)
  | _ => none

/-- A value is read into a variable. -/
def isReading : Action → Bool
  | read _ _ _ => true
  | _ => false

/-- What is found of a store into a constant, whose name may be protected. -/
def onConstant (symbol : Symbol) (isProtected : Bool) : Action → List LocatedFinding
  | target n line =>
    (if isProtected then [⟨.counterModified n, line⟩] else []) ++ [⟨.constantAssigned n, line⟩]
  | counter n line => [⟨.counterConstant n, line⟩]
  | read routine n line =>
    (if symbol.ty.same .boolean then [⟨.readBoolean n (Text.upper routine), line⟩] else []) ++
      if isProtected then [⟨.counterModified n, line⟩] else []
  | _ => []

/-- **A store into a constant is in error, unless it is by reading** and the constant counts no loop
around. -/
theorem error_onConstant_iff {action : Action} {name : String} {line : Int}
    (h : action.stored? = some (name, line)) (symbol : Symbol) (isProtected : Bool) :
    (∃ d ∈ (action.onConstant symbol isProtected).map LocatedFinding.diagnostic,
      d.isError = true) ↔ action.isReading = false ∨ isProtected = true := by
  cases action with
  | target n line | counter n line =>
    simp [onConstant, isReading, Finding.severity]
  | read routine n line =>
    cases isProtected <;> cases symbol.ty.same .boolean <;>
      simp [onConstant, isReading, Finding.severity]
  | _ => cases h

end Action

namespace Analysis
variable {catalogue : Catalogue} {s s' : AnalysisState} {n : String} {line : Int} {symbol : Symbol}
  {held : Held}

/-- The left side of an assignment to a constant. -/
theorem run_target_constant {types : List Ty} (hfound : s.table.find? n = some symbol)
    (hconstant : symbol.category = .constant)
    (h : StateT.run ((Action.target n line).effect catalogue types) s = .ok (held, s')) :
    s' = s.reporting ((Action.target n line).onConstant symbol
      (s.counters.contains (Text.lower n))) := by
  obtain ⟨_, _, hsymbol, h⟩ := run_bind_eq_ok.mp h
  cases hsymbol
  rw [hfound] at h
  obtain ⟨_, checked, hcheck, h⟩ := run_bind_eq_ok.mp h
  rw [if_pos hconstant] at h
  obtain ⟨_, reported, hreport, h⟩ := run_bind_eq_ok.mp h
  cases h
  rw [run_report hreport, run_checkNotCounter hcheck, s.reporting_append]
  rfl

/-- The counter of a loop that is a constant. -/
theorem run_counter_constant {types : List Ty} (hn : n ≠ "")
    (hfound : s.table.find? n = some symbol) (hconstant : symbol.category = .constant)
    (h : StateT.run ((Action.counter n line).effect catalogue types) s = .ok (held, s')) :
    s' = s.reporting [⟨.counterConstant n, line⟩] := by
  obtain ⟨_, checked, hcheck, h⟩ := run_bind_eq_ok.mp h
  cases h
  unfold checkCounter at hcheck
  rw [if_pos hn] at hcheck
  obtain ⟨_, _, hsymbol, hcheck⟩ := run_bind_eq_ok.mp hcheck
  cases hsymbol
  rw [hfound] at hcheck
  dsimp only at hcheck
  rw [if_pos hconstant] at hcheck
  exact run_report hcheck

/-- Reading into what a name means: nothing is asked about what it stands for. -/
theorem findings_read {routine : String} {types : List Ty} (hfound : s.table.find? n = some symbol)
    (h : StateT.run ((Action.read routine n line).effect catalogue types) s = .ok (held, s')) :
    s'.findings = (s.reporting ((Action.read routine n line).onConstant symbol
      (s.counters.contains (Text.lower n)))).findings := by
  obtain ⟨_, stored, hstore, h⟩ := run_bind_eq_ok.mp h
  cases h
  obtain ⟨_, _, hsymbol, hstore⟩ := run_bind_eq_ok.mp hstore
  cases hsymbol
  rw [hfound] at hstore
  -- Behind the report on a Boolean, if any, only the check of the counters finds anything.
  have hrest : ∀ {s : AnalysisState}, StateT.run (do
      checkNotCounter n line
      changeTable (·.markInitialized n)
      changeTable (·.countUse n)) s = .ok ((), s') →
        s'.findings = (s.reporting (if s.counters.contains (Text.lower n) then
          [⟨.counterModified n, line⟩] else [])).findings := by
    intro s h
    obtain ⟨_, checked, hcheck, h⟩ := run_bind_eq_ok.mp h
    cases h
    rw [← run_checkNotCounter hcheck]
  cases hboolean : symbol.ty.same .boolean with
  | true =>
    simp only [hboolean, if_true] at hstore
    obtain ⟨_, reported, hreport, hstore⟩ := run_bind_eq_ok.mp hstore
    rw [hrest hstore, run_report hreport, AnalysisState.reporting_append, Action.onConstant,
      if_pos hboolean]
    rfl
  | false =>
    simp only [hboolean, Bool.false_eq_true, if_false] at hstore
    rw [hrest hstore, Action.onConstant, hboolean]
    rfl

/-- **What is found of a store into a constant.** -/
theorem findings_stored {action : Action} {types : List Ty}
    (hstored : action.stored? = some (n, line)) (hfound : s.table.find? n = some symbol)
    (hconstant : symbol.category = .constant)
    (h : StateT.run (action.effect catalogue types) s = .ok (held, s')) :
    s'.findings.toList = s.findings.toList ++
      action.onConstant symbol (s.counters.contains (Text.lower n)) := by
  have hfindings : s'.findings =
      (s.reporting (action.onConstant symbol (s.counters.contains (Text.lower n)))).findings := by
    cases action with
    | target name place =>
      cases hstored
      exact congrArg AnalysisState.findings (run_target_constant hfound hconstant h)
    | read routine name place =>
      cases hstored
      exact findings_read hfound h
    | counter name place =>
      obtain ⟨hname, rfl, rfl⟩ : name ≠ "" ∧ name = n ∧ place = line := by
        simpa [Action.stored?] using hstored
      exact congrArg AnalysisState.findings (run_counter_constant hname hfound hconstant h)
    | _ => cases hstored
  rw [hfindings, AnalysisState.findings_reporting]

end Analysis

/-- What an analysis of the tree finds of stores into constants, and what the bag has of that. -/
structure RefusesConstants (catalogue : Catalogue) (tree : Program) (s : AnalysisState)
    (bag : Bag) : Prop where
  /-- The walk is through the positions, in order. -/
  steps : tree.positions.map Position.action = tree.toNode.script
  /-- Of a store into a constant there is an error in the bag if it is not by reading, or if the
  name is protected there, and only then. -/
  stores : ∀ position ∈ tree.positions, ∀ name line, position.action.stored? = some (name, line) →
    ∃ here next, position.Passes catalogue here next ∧
      next.findings.toList <+: s.findings.toList ∧
      ∀ symbol, here.table.find? name = some symbol → symbol.category = .constant →
        ∃ found, next.findings.toList = here.findings.toList ++ found ∧
          found = position.action.onConstant symbol (position.isProtected (Text.lower name)) ∧
          bag.ShowsBehind here found ∧
          ((∃ d ∈ found.map LocatedFinding.diagnostic, d.isError = true) ↔
            position.action.isReading = false ∨ position.isProtected (Text.lower name) = true)

namespace Analysis
variable {catalogue : Catalogue} {p : Program} {s : AnalysisState} {bag : Bag}

/-- The steps that store are passed over nowhere. -/
theorem run_of_stored? {front : List Position} {position : Position} {around : List Surrounding}
    {here next : AnalysisState} (h : Passage catalogue front position around here next)
    {name : String} {line : Int} (hstored : position.action.stored? = some (name, line)) :
    ∃ types held, StateT.run (position.action.effect catalogue types) here = .ok (held, next) := by
  refine h.performs.resolve_right fun hpassed => ?_
  have hnot : position.action.isTyping = false ∧ position.action.isStore = false := by
    generalize position.action = action at hstored
    cases action <;> first | exact ⟨rfl, rfl⟩ | cases hstored
  rw [hnot.1, hnot.2] at hpassed
  rcases hpassed.2 with hpassed | hpassed <;> cases hpassed

/-- **What is stored into constants is found in every program** whose analysis comes to its end. -/
theorem refusesConstants_of_run (h : run catalogue p = .ok s) (hbag : bag.ShowsFindings s) :
    RefusesConstants catalogue p s bag := by
  obtain ⟨last, hreaches, -, -, hlast⟩ := exists_reaches_of_run h
  refine ⟨p.map_action_positions, fun position hmem name line hstored => ?_⟩
  obtain ⟨front, rest, next, here, there, hpositions, hpassage⟩ :=
    p.route_positions.exists_passage hreaches hmem
  have hkept := (hpassage.continues hpositions hreaches).trans hlast
  refine ⟨here, there, hpassage.passes, hkept, fun symbol hfound hconstant => ?_⟩
  obtain ⟨types, held, hrun⟩ := run_of_stored? hpassage hstored
  have hfindings := findings_stored hstored hfound hconstant hrun
  have hprotected : here.counters.contains (Text.lower name) =
      position.isProtected (Text.lower name) := by
    rw [Bool.eq_iff_iff, List.contains_iff_mem]
    exact hpassage.guards_here (Text.lower name)
  rw [hprotected] at hfindings
  exact ⟨_, hfindings, rfl, hbag.behind hfindings hkept,
    Action.error_onConstant_iff hstored symbol _⟩

end Analysis

namespace Outcome

/-- **Constants are refused by assignments and loops, but not by reading, in every source**: with
any built-in routines that can be loaded, its check gives an outcome, and its bag has of each store
into a constant what the kind of the store and the loops around it say. -/
theorem ofSource_refusesConstants {loader : Loader} (h : loader.Reachable) (name source : String) :
    ∃ outcome tree s, ofSource loader.catalogue name source = .ok outcome ∧
      outcome.program = some tree ∧ outcome.table = some s.table ∧
      outcome.bag.entries = (Lexed.ofSource source).diagnostics ++
        (Grammar.parse (Lexed.ofSource source).tokens).faults.map GrammarFault.diagnostic ++
          s.findings.toList.map LocatedFinding.diagnostic ∧
      RefusesConstants loader.catalogue tree s outcome.bag := by
  obtain ⟨outcome, s, hcheck, hrun, htree, htable, hentries, hbag⟩ :=
    exists_findings_of_source h name source
  exact ⟨outcome, _, s, hcheck, htree, htable, hentries,
    Analysis.refusesConstants_of_run hrun hbag⟩

/-- A constant is read into, which is not in error. -/
def readConstant : String :=
  "const c = 1; begin read(c) end."

theorem ofSource_refusesConstants_read :
    ∃ outcome tree s,
      ofSource (Loader.loadStandard {}).catalogue "" readConstant = .ok outcome ∧
      outcome.program = some tree ∧ outcome.table = some s.table ∧
      outcome.bag.entries = (Lexed.ofSource readConstant).diagnostics ++
        (Grammar.parse (Lexed.ofSource readConstant).tokens).faults.map GrammarFault.diagnostic ++
          s.findings.toList.map LocatedFinding.diagnostic ∧
      RefusesConstants (Loader.loadStandard {}).catalogue tree s outcome.bag :=
  ofSource_refusesConstants (.standard .empty) _ _

end Outcome
end PascalCheck
