import PascalCheck.Proofs.Check.Reports
import PascalCheck.Proofs.Walk.Ending
import PascalCheck.Proofs.Walk.Occurrences
import PascalCheck.Proofs.Walk.Scoping

/-! # Names are resolved by the text alone

The analysis keeps a stack of scopes, that it opens and closes on its way; what it finds in it can
be read off the text.  A name refers to the first declaration of its routine in front of the place,
or else to the first one outside of the routines; the final symbols are the first declarations, with
as many uses as there are references to them; and the variables without any are reported, in the
order of their declaration, which makes the warnings on unused variables in the bag of the check
(`StaticallyScoped`).  An assignment to nothing, or to a constant, is given up at its target, so
that the names inside it count for nothing.  **This is how every source is checked**
(`ofSource_staticallyScoped`). -/
namespace PascalCheck

/-- What an analysis that performs the script comes to, and what the bag has of that, is what the
script says of its names. -/
structure StaticallyScoped (catalogue : Catalogue) (script : List Action) (s : AnalysisState)
    (bag : Bag) : Prop where
  /-- At each use of a name the table leads to the declaration that the text refers to; the use is
  passed over in an assignment whose target is refused, and only there. -/
  resolves : ∀ before action after name, script = before ++ action :: after →
    action.mention? = some name → ∃ held here, Analysis.Reaches catalogue before held here ∧
      here.table.lookup name = (Lexicon.behind before).meaning name ∧
      ((Lexicon.behind before).meaning name).bind ((Lexicon.behind before).names[·]?) =
        Lexicon.declarationOf? before name ∧
      (held.skipping = true ↔ Lexicon.IsRefused before)
  /-- The symbols are the first declarations, in order. -/
  symbols : s.table.symbols.toList.map (fun symbol => (symbol.name, symbol.line)) =
    (Lexicon.behind script).names.map fun known => (known.name, known.line)
  uses : ∀ number symbol, s.table.symbols[number]? = some symbol →
    symbol.uses = Lexicon.useCount script number
  unused : s.unusedFound =
    (s.table.numbered.filter fun symbol =>
      symbol.1.category = .variable && Lexicon.useCount script symbol.2 == 0).map fun symbol =>
        ⟨.unused symbol.1.name symbol.1.line, symbol.1.line⟩
  /-- The warnings of the bag on unused variables are those of the variables without a use, in the
  order of their declaration. -/
  warnings : bag.entries.filter Diagnostic.isUnused =
    (s.table.numbered.filter fun symbol =>
      symbol.1.category = .variable && Lexicon.useCount script symbol.2 == 0).map fun symbol =>
        LocatedFinding.diagnostic ⟨.unused symbol.1.name symbol.1.line, symbol.1.line⟩

namespace Analysis
variable {catalogue : Catalogue} {p : Program} {s' : AnalysisState} {bag : Bag}

/-! ## The names of a program -/

open Lexicon

/-- The symbols of the table that is described are the known names, with as many uses as these. -/
theorem symbol_of_describes {script : List Action} {table : ScopeTable}
    (h : (behind script).Describes table) {number : Nat} {symbol : Symbol}
    (hsymbol : table.symbols[number]? = some symbol) :
    ∃ known, (behind script).names[number]? = some known ∧ symbol.name = known.name ∧
      symbol.line = known.line ∧ symbol.uses = useCount script number := by
  have hlt : number < (behind script).names.length :=
    h.size ▸ (Array.getElem?_eq_some_iff.mp hsymbol).1
  have hknown := List.getElem?_eq_getElem hlt
  obtain ⟨other, hother, hmatches⟩ := h.symbols number _ hknown
  obtain rfl : other = symbol := Option.some.inj (hother.symm.trans hsymbol)
  refine ⟨_, hknown, hmatches.name, hmatches.line, hmatches.uses.trans ?_⟩
  rw [uses, useCount, hknown, references_behind, Option.any_some]

/-- **An analysis resolves the names of a program by its text**, if the declarations stand in front
of the statements. -/
theorem staticallyScoped_of_run (ht : p.isTiered = true) (h : run catalogue p = .ok s')
    (hbag : bag.ShowsFindings s') : StaticallyScoped catalogue p.toNode.script s' bag := by
  obtain ⟨s, hreaches, hsummarize⟩ := run_eq_ok h
  obtain ⟨htable, hfound⟩ := run_summarize hsummarize
  -- Nothing is declared while a block is open, so that the description reaches the end.
  have hadmits := p.admitsAll_script ht
  obtain ⟨hdescribes, -, hnone⟩ := describes_of_reaches hadmits hreaches
  rw [← htable] at hdescribes
  have huses : ∀ number symbol, s'.table.symbols[number]? = some symbol →
      symbol.uses = useCount p.toNode.script number := by
    intro number symbol hsymbol
    obtain ⟨_, -, -, -, huses⟩ := symbol_of_describes hdescribes hsymbol
    exact huses
  have hunused : s'.unusedFound =
      (s'.table.numbered.filter fun symbol =>
        symbol.1.category = .variable && useCount p.toNode.script symbol.2 == 0).map
          fun symbol => ⟨.unused symbol.1.name symbol.1.line, symbol.1.line⟩ := by
    rw [hfound, hnone, ← htable, List.nil_append, ScopeTable.unused]
    congr 1
    refine List.filter_congr fun symbol hmem => ?_
    rw [huses symbol.2 symbol.1 (by
      rw [← Array.getElem?_toList]
      exact List.mem_zipIdx_iff_getElem?.mp hmem)]
  refine ⟨fun before action after name hscript _ => ?_, ?_, huses, hunused, ?_⟩
  · rw [hscript] at hreaches hadmits
    rw [admitsAll_append, Bool.and_eq_true] at hadmits
    obtain ⟨held, here, hbefore⟩ := hreaches.before
    obtain ⟨hhere, hskipping, -⟩ := describes_of_reaches hadmits.1 hbefore
    exact ⟨held, here, hbefore, hhere.lookup name, declaration_of_meaning before name,
      hskipping ▸ skipping_behind_iff before⟩
  · refine List.ext_getElem? fun number => ?_
    rw [List.getElem?_map, List.getElem?_map, Array.getElem?_toList]
    cases hsymbol : s'.table.symbols[number]? with
    | none =>
      have hge := Array.getElem?_eq_none_iff.mp hsymbol
      rw [List.getElem?_eq_none (hdescribes.size ▸ hge)]
      rfl
    | some symbol =>
      obtain ⟨known, hknown, hname, hline, -⟩ := symbol_of_describes hdescribes hsymbol
      rw [hknown, Option.map_some, Option.map_some, hname, hline]
  · rw [hbag.unusedVariables, hunused, List.map_map]
    rfl

end Analysis

namespace Outcome

/-- **Names are resolved by the text alone, in every source**: with any built-in routines that can
be loaded, its check gives an outcome, and the analysis behind it looks names up, counts their uses
and warns of unused variables as the text of the tree says. -/
theorem ofSource_staticallyScoped {loader : Loader} (h : loader.Reachable) (name source : String) :
    ∃ outcome tree s, ofSource loader.catalogue name source = .ok outcome ∧
      outcome.program = some tree ∧ outcome.table = some s.table ∧
      outcome.bag.entries = (Lexed.ofSource source).diagnostics ++
        (Grammar.parse (Lexed.ofSource source).tokens).faults.map GrammarFault.diagnostic ++
          s.findings.toList.map LocatedFinding.diagnostic ∧
      StaticallyScoped loader.catalogue tree.toNode.script s outcome.bag := by
  obtain ⟨outcome, s, hcheck, hrun, htree, htable, hentries, hbag⟩ :=
    exists_findings_of_source h name source
  exact ⟨outcome, _, s, hcheck, htree, htable, hentries,
    Analysis.staticallyScoped_of_run (Grammar.isTiered_parse _) hrun hbag⟩

/-- The parameter hides the variable in the procedure. -/
def hiddenVariable : String :=
  "var x: real; procedure p(x: real); begin x := x end; begin read(x) end."

theorem ofSource_staticallyScoped_standard :
    ∃ outcome tree s,
      ofSource (Loader.loadStandard {}).catalogue "hidden" hiddenVariable = .ok outcome ∧
      outcome.program = some tree ∧ outcome.table = some s.table ∧
      outcome.bag.entries = (Lexed.ofSource hiddenVariable).diagnostics ++
        (Grammar.parse (Lexed.ofSource hiddenVariable).tokens).faults.map
          GrammarFault.diagnostic ++ s.findings.toList.map LocatedFinding.diagnostic ∧
      StaticallyScoped (Loader.loadStandard {}).catalogue tree.toNode.script s outcome.bag :=
  ofSource_staticallyScoped (.standard .empty) _ _

/-- A name stands in an assignment to a constant. -/
def constantTarget : String :=
  "const c = 1; var y: integer; begin c := y end."

/-- A name in an assignment to a constant refers to something, but is not counted as a use of it. -/
theorem ofSource_constantTarget :
    ∃ outcome tree symbol,
      ofSource (Loader.loadStandard {}).catalogue "" constantTarget = .ok outcome ∧
      outcome.program = some tree ∧ outcome.symbols[1]? = some symbol ∧
      symbol.uses ≠ Lexicon.occurrences tree.toNode.script 1 +
        if (Lexicon.behind tree.toNode.script).names[1]?.any (·.isParameter) then 1 else 0 := by
  have hrun : (ofSource (Loader.loadStandard {}).catalogue "" constantTarget).toOption.any
      (fun outcome => outcome.program.any fun tree => outcome.symbols[1]?.any fun symbol =>
        symbol.uses != Lexicon.occurrences tree.toNode.script 1 +
          if (Lexicon.behind tree.toNode.script).names[1]?.any (·.isParameter) then 1
            else 0) = true := by
    decide +kernel
  cases hcheck : ofSource (Loader.loadStandard {}).catalogue "" constantTarget with
  | error fault =>
    rw [hcheck] at hrun
    cases hrun
  | ok outcome =>
    rw [hcheck] at hrun
    change Option.any _ (some outcome) = true at hrun
    rw [Option.any_some] at hrun
    obtain ⟨tree, htree, hrun⟩ := (Option.any_eq_true _ _).mp hrun
    obtain ⟨symbol, hsymbol, hne⟩ := (Option.any_eq_true _ _).mp hrun
    exact ⟨outcome, tree, symbol, rfl, htree, hsymbol, bne_iff_ne.mp hne⟩

end Outcome
end PascalCheck
