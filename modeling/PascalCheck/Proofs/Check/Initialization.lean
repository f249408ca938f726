import PascalCheck.Proofs.Check.Reports
import PascalCheck.Proofs.Walk.Stores

/-! # Values are missed where nothing has been stored

Where a name in an expression means a symbol, the analysis asks whether the symbol has a value.  It
misses one, with a warning in the bag, just where none of the steps in front of the name has stored
into the symbol (`MissesValues`).  These are in the order in which the program does them: an
assignment and reading store behind their expressions, and a loop into its counter behind its
bounds.  There is one exception, that the counter of a loop is not missed in its own bounds; and
what is in an assignment whose target is refused is passed over.  **This is how every source is
checked** (`ofSource_missesValues`). -/
namespace PascalCheck

/-- What an analysis of the tree finds of the values of names in expressions, and what the bag has
of that. -/
structure MissesValues (catalogue : Catalogue) (tree : Program) (s : AnalysisState) (bag : Bag) :
    Prop where
  /-- The walk is through the positions, in order. -/
  steps : tree.positions.map Position.action = tree.toNode.script
  /-- The value of a name is missed if nothing has been stored into what it means, and only then;
  its warning is in the bag. -/
  names : ∀ position ∈ tree.positions, ∀ name line number, position.action = .name name line →
    (Lexicon.behind position.before).meaning name = some number →
    ¬ Lexicon.IsRefused position.before →
    number ∈ Lexicon.stores position.before ∨ Lexicon.ahead? position.before ≠ some number →
    ∃ here next found, position.Passes catalogue here next ∧
      here.table.lookup name = some number ∧
      found = (if number ∈ Lexicon.stores position.before then []
        else [⟨.uninitialized name, line⟩]) ∧
      next.findings.toList = here.findings.toList ++ found ∧
      bag.ShowsBehind here found ∧
      ((∃ d ∈ found.map LocatedFinding.diagnostic, d.isMissedValue = true) ↔
        number ∉ Lexicon.stores position.before) ∧
      next.findings.toList <+: s.findings.toList
  /-- Nothing is found where the assignment is refused. -/
  refused : ∀ position ∈ tree.positions, ∀ name line, position.action = .name name line →
    Lexicon.IsRefused position.before → ∃ here, position.Passes catalogue here here

namespace Analysis
variable {catalogue : Catalogue}

/-- A name that means a symbol is asked for its value. -/
theorem findings_nameType {s s' : AnalysisState} {name : String} {line : Int} {symbol : Symbol}
    {ty : Ty} (hfound : s.table.find? name = some symbol)
    (h : StateT.run (nameType catalogue name line) s = .ok (ty, s')) :
    s'.findings.toList = s.findings.toList ++
      if symbol.initialized then [] else [⟨.uninitialized name, line⟩] := by
  obtain ⟨_, _, hsymbol, h⟩ := run_bind_eq_ok.mp h
  cases hsymbol
  rw [hfound] at h
  dsimp only at h
  cases hvalue : symbol.initialized with
  | true =>
    simp only [hvalue, if_true] at h
    cases h
    simp
  | false =>
    simp only [hvalue, Bool.false_eq_true, if_false] at h
    obtain ⟨_, reported, hreport, h⟩ := run_bind_eq_ok.mp h
    cases h
    simp [run_report hreport]

variable {p : Program} {s : AnalysisState} {bag : Bag} {position : Position} {front : List Position}
  {around : List Surrounding} {here next : AnalysisState}

/-- In a program whose declarations stand in front of its statements, the text in front of a
position tells which symbols have a value there. -/
theorem followsStores_here (ht : p.isTiered = true) (hmem : position ∈ p.positions)
    (h : Passage catalogue front position around here next) :
    here.table.FollowsStores position.before := by
  obtain ⟨-, before, rest, hpositions, hbefore, -⟩ := p.route_positions.exists_of_mem hmem
  have hpaces := p.toNode.paces_script
  rw [← p.map_action_positions, hpositions, List.map_append] at hpaces
  have hfront := hpaces.split.1
  rw [← List.nil_append (before.map Position.action), ← hbefore, h.before] at hfront
  obtain ⟨held, -, hreaches, -⟩ := h.passes
  have hadmits := p.admitsAll_before ht hmem
  rw [h.before] at hadmits hreaches ⊢
  exact h.route.followsStores hadmits hfront hreaches

/-- **Values are missed in every program** whose declarations stand in front of its statements, and
whose analysis comes to its end. -/
theorem missesValues_of_run (ht : p.isTiered = true) (h : run catalogue p = .ok s)
    (hbag : bag.ShowsFindings s) : MissesValues catalogue p s bag := by
  refine ⟨p.map_action_positions,
    fun position hmem name line number haction hmeaning hactive hahead => ?_,
    fun position hmem name line haction hrefused => ?_⟩
  · obtain ⟨front, around, here, next, hpassage, hkept⟩ := exists_passage_of_run h hmem
    have hadmits := p.admitsAll_before ht hmem
    obtain ⟨types, held, -, hrun⟩ := hpassage.performed hadmits hactive
    rw [haction] at hrun
    obtain ⟨_, _, htype, hrun⟩ := run_bind_eq_ok.mp hrun
    cases hrun
    have hdescribes := hpassage.describes hadmits
    have hlookup : here.table.lookup name = some number := (hdescribes.lookup name).trans hmeaning
    obtain ⟨-, symbol, -, hfound, hsymbol, -⟩ := hdescribes.exists_symbol hmeaning
    have hvalue : here.table.hasValue number = symbol.initialized := by
      rw [ScopeTable.hasValue, hsymbol]
      rfl
    have hstores : symbol.initialized = true ↔ number ∈ Lexicon.stores position.before := by
      rw [← hvalue, followsStores_here ht hmem hpassage number]
      exact or_iff_left_of_imp fun hawaited => hahead.resolve_right (not_not.mpr hawaited)
    have hmissed : next.findings.toList = here.findings.toList ++
        (if number ∈ Lexicon.stores position.before then []
          else [⟨.uninitialized name, line⟩]) := by
      rw [findings_nameType hfound htype]
      simp only [hstores]
    refine ⟨here, next, _, hpassage.passes, hlookup, rfl, hmissed, hbag.behind hmissed hkept, ?_,
      hkept⟩
    by_cases hstored : number ∈ Lexicon.stores position.before <;>
      simp [hstored, LocatedFinding.isMissedValue_diagnostic, Finding.isMissedValue]
  · obtain ⟨front, around, here, next, hpassage, -⟩ := exists_passage_of_run h hmem
    obtain rfl := hpassage.passed_over (p.admitsAll_before ht hmem) hrefused
    exact ⟨next, hpassage.passes⟩

end Analysis

namespace Outcome

/-- **Values are missed where nothing has been stored, in every source**: with any built-in routines
that can be loaded, its check gives an outcome, and its bag has warnings of values that are missed
as the steps in front of the names in expressions tell. -/
theorem ofSource_missesValues {loader : Loader} (h : loader.Reachable) (name source : String) :
    ∃ outcome tree s, ofSource loader.catalogue name source = .ok outcome ∧
      outcome.program = some tree ∧ outcome.table = some s.table ∧
      outcome.bag.entries = (Lexed.ofSource source).diagnostics ++
        (Grammar.parse (Lexed.ofSource source).tokens).faults.map GrammarFault.diagnostic ++
          s.findings.toList.map LocatedFinding.diagnostic ∧
      MissesValues loader.catalogue tree s outcome.bag := by
  obtain ⟨outcome, s, hcheck, hrun, htree, htable, hentries, hbag⟩ :=
    exists_findings_of_source h name source
  exact ⟨outcome, _, s, hcheck, htree, htable, hentries,
    Analysis.missesValues_of_run (Grammar.isTiered_parse _) hrun hbag⟩

/-- Of the bounds the first one has no value, and the second one has been read. -/
def missedBounds : String :=
  "var i, j, n: integer; begin read(n); for i := j to n do j := i; n := j end."

theorem ofSource_missesValues_bounds :
    ∃ outcome tree s,
      ofSource (Loader.loadStandard {}).catalogue "bounds" missedBounds = .ok outcome ∧
      outcome.program = some tree ∧ outcome.table = some s.table ∧
      outcome.bag.entries = (Lexed.ofSource missedBounds).diagnostics ++
        (Grammar.parse (Lexed.ofSource missedBounds).tokens).faults.map GrammarFault.diagnostic ++
          s.findings.toList.map LocatedFinding.diagnostic ∧
      MissesValues (Loader.loadStandard {}).catalogue tree s outcome.bag :=
  ofSource_missesValues (.standard .empty) _ _

/-- Nothing is stored into the variable in front of the two places where it stands, but no value is
missed: both assignments are refused. -/
theorem ofSource_refusedNames :
    (ofSource (Loader.loadStandard {}).catalogue ""
        "const c = 1; var y: integer; begin c := y; z := y end.").toOption.map (fun outcome =>
      (outcome.program.map fun tree =>
          (tree.positions.filter (·.action.mention? = some "y")).map fun position =>
            ((Lexicon.behind position.before).meaning "y", Lexicon.stores position.before),
        outcome.bag.entries.contains (LocatedFinding.diagnostic ⟨.uninitialized "y", 1⟩))) =
      some (some [(some 1, [0]), (some 1, [0])], false) := by
  decide +kernel

end Outcome
end PascalCheck
