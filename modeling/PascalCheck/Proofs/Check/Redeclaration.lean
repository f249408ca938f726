import PascalCheck.Proofs.Check.Reports
import PascalCheck.Proofs.Walk.Constants
import PascalCheck.Proofs.Walk.Declarations

/-! # The first declaration of a name counts

A program declares names outside of its routines, and in each declaration of a routine: parameters
first, then the result of a function under the name of the function, then constants and variables.
Of the declarations of a name in one of these scopes, in any letter case, the first one becomes a
symbol; each other one is reported where it stands, as an error in the bag with the type and the
line of the first, and changes nothing of any symbol (`KeepsFirst`).  Only the result of a function
that has a parameter of its own name is passed over without a word.  **This is how every source is
checked** (`ofSource_keepsFirst`). -/
namespace PascalCheck

/-- The declarations in front of a position. -/
def Program.declarationsBefore (catalogue : Catalogue) (tree : Program) (position : Position) :
    List NameDeclaration :=
  declarationsAt catalogue (tree.positions.take position.before.length)

/-- What an analysis of the tree makes of the declarations of names, and what the bag has of
that. -/
structure KeepsFirst (catalogue : Catalogue) (tree : Program) (s : AnalysisState) (bag : Bag) :
    Prop where
  /-- The walk is through the positions, in order. -/
  steps : tree.positions.map Position.action = tree.toNode.script
  /-- The symbols are the first declarations of each name in each scope, in the order of the
  walk. -/
  symbols : s.table.symbols.toList.map Symbol.declaration =
    (NameDeclaration.firsts (declarationsAt catalogue tree.positions)).map
      NameDeclaration.declared
  /-- The others are reported, once, and nothing else is as they are. -/
  reports : s.findings.toList.filter (·.finding.isRedeclaration) =
    NameDeclaration.reports (declarationsAt catalogue tree.positions)
  /-- These reports are the errors of the bag on names that are declared again, in order. -/
  errors : bag.entries.filter Diagnostic.isRedeclaration =
    (NameDeclaration.reports (declarationsAt catalogue tree.positions)).map
      LocatedFinding.diagnostic
  /-- A declaration finds nothing but what is reported of it, and that is in the bag; one that is
  not the first leaves the symbols and the scopes as they are. -/
  attempts : ∀ position ∈ tree.positions, ∀ d, position.declaration? catalogue = some d →
    ∃ here next, position.Passes catalogue here next ∧
      next.findings.toList = here.findings.toList ++
        (NameDeclaration.report? (tree.declarationsBefore catalogue position) d).toList ∧
      bag.ShowsBehind here
        (NameDeclaration.report? (tree.declarationsBefore catalogue position) d).toList ∧
      ((tree.declarationsBefore catalogue position).any d.clashes = true →
        next.table = here.table)
  /-- A constant is declared with the type that the walk over its value gives, right before. -/
  constants : ∀ position ∈ tree.positions, ∀ name line, position.action = .constant name line →
    ∃ outer declaration held start ty here next,
      position.before = outer ++ ConstDeclaration.valueScript declaration ∧
      declaration.name = name ∧ declaration.line = line ∧
      Analysis.Reaches catalogue outer held start ∧
      StateT.run (Analysis.constantType catalogue declaration.value) start = .ok (ty, here) ∧
      position.Passes catalogue here next ∧
      (position.declaration? catalogue).map (·.declared.ty) = some ty

namespace Analysis
variable {catalogue : Catalogue} {p : Program} {s : AnalysisState} {bag : Bag}

/-- **The first declarations count in every program** whose declarations stand in front of its
statements, and whose analysis comes to its end. -/
theorem keepsFirst_of_run (ht : p.isTiered = true) (h : run catalogue p = .ok s)
    (hbag : bag.ShowsFindings s) : KeepsFirst catalogue p s bag := by
  obtain ⟨last, hreaches, htable, hmarks, hkept⟩ := exists_reaches_of_run h
  have hadmits := p.admitsAll_script ht
  rw [← p.map_action_positions] at hadmits
  have hlast := p.route_positions.recordsFirst hadmits hreaches
  have hredeclared : s.redeclared =
      NameDeclaration.reports (declarationsAt catalogue p.positions) :=
    (congrArg Marks.redeclared hmarks).trans hlast.redeclared
  refine ⟨p.map_action_positions, htable ▸ hlast.symbols, hredeclared, ?_,
    fun position hmem d hd => ?_, fun position hmem name line haction => ?_⟩
  · rw [hbag.redeclarations, hredeclared]
  · obtain ⟨front, rest, next, here, there, hpositions, hpassage⟩ :=
      p.route_positions.exists_passage hreaches hmem
    obtain ⟨hblocks, -, types, held, hdeclaration, hrun⟩ :=
      hpassage.declares (p.admitsAll_through ht hmem) hd
    have hbefore : p.declarationsBefore catalogue position = declarationsAt catalogue front := by
      rw [Program.declarationsBefore, hpositions, hpassage.before, List.length_map,
        List.take_left' rfl]
    have hadmitted := p.admitsAll_before ht hmem
    have hrecords : RecordsFirst (declarationsAt catalogue front)
        (Lexicon.behind position.before) here := by
      obtain ⟨_, -, hhere, -⟩ := hpassage.passes
      rw [hpassage.before] at hadmitted hhere ⊢
      exact hpassage.route.recordsFirst hadmitted hhere
    have hdescribes := hpassage.describes hadmitted
    obtain ⟨hroutine, hscope⟩ := Action.scope_of_declaration? hdeclaration
    have hfound : there.findings.toList = here.findings.toList ++
        (NameDeclaration.report? (declarationsAt catalogue front) d).toList := by
      rw [hrecords.toList_report? hdescribes hblocks hroutine hscope]
      exact findings_of_declaration? hdeclaration hrun
    have hshown := hbag.behind hfound ((hpassage.continues hpositions hreaches).trans hkept)
    rw [hbefore]
    refine ⟨here, there, hpassage.passes, hfound, hshown, fun hclashes => ?_⟩
    · obtain ⟨⟨hmoved, -⟩, -⟩ := moves_effect position.action types here held there hrun
      obtain ⟨_, _, -, honTable⟩ := Action.onTable_of_declaration? hdeclaration here.table
      rw [hmoved, honTable]
      exact ScopeTable.declareThen_of_lookupCurrent _ _
        ((hrecords.isSome_lookupCurrent hdescribes hblocks hroutine).trans hclashes)
  · obtain ⟨front, rest, next, here, there, hpositions, hpassage⟩ :=
      p.route_positions.exists_passage hreaches hmem
    have hscript : p.toNode.script =
        position.before ++ .constant name line :: rest.map Position.action := by
      rw [← p.map_action_positions, hpositions, List.map_append, List.map_cons, hpassage.before,
        haction]
    obtain ⟨outer, declaration, hvalue, hname, hline⟩ :=
      p.toNode.isValued_script position.before name line _ hscript
    have hdeclares : position.action.isDeclaration = true := by
      rw [haction]
      rfl
    obtain ⟨types, held, hhere, -⟩ :=
      hpassage.performed_of_free (Action.not_passed_over hdeclares)
    rw [hvalue] at hhere
    obtain ⟨held', start, ty, more, houter, htype, rfl⟩ := hhere.constant
    refine ⟨outer, declaration, held', start, ty, here, there, hvalue, hname, hline, houter, htype,
      hpassage.passes, ?_⟩
    rw [Position.declaration?, hvalue, hhere.typesBehind_eq, haction]
    rfl

end Analysis

namespace Outcome

/-- **The first declaration of a name counts, in every source**: with any built-in routines that can
be loaded, its check gives an outcome, and the analysis behind it makes symbols of the first
declarations and reports the others, each as an error in the bag. -/
theorem ofSource_keepsFirst {loader : Loader} (h : loader.Reachable) (name source : String) :
    ∃ outcome tree s, ofSource loader.catalogue name source = .ok outcome ∧
      outcome.program = some tree ∧ outcome.table = some s.table ∧
      outcome.bag.entries = (Lexed.ofSource source).diagnostics ++
        (Grammar.parse (Lexed.ofSource source).tokens).faults.map GrammarFault.diagnostic ++
          s.findings.toList.map LocatedFinding.diagnostic ∧
      KeepsFirst loader.catalogue tree s outcome.bag := by
  obtain ⟨outcome, s, hcheck, hrun, htree, htable, hentries, hbag⟩ :=
    exists_findings_of_source h name source
  exact ⟨outcome, _, s, hcheck, htree, htable, hentries,
    Analysis.keepsFirst_of_run (Grammar.isTiered_parse _) hrun hbag⟩

/-- The second parameter is declared again, and so is the constant; the result of the function is
hidden by its first parameter. -/
def hiddenNames : String :=
  "const c = 1; var C: real; function f(F, x, X: char): real; begin end; begin end."

theorem ofSource_keepsFirst_hidden :
    ∃ outcome tree s,
      ofSource (Loader.loadStandard {}).catalogue "hidden" hiddenNames = .ok outcome ∧
      outcome.program = some tree ∧ outcome.table = some s.table ∧
      outcome.bag.entries = (Lexed.ofSource hiddenNames).diagnostics ++
        (Grammar.parse (Lexed.ofSource hiddenNames).tokens).faults.map GrammarFault.diagnostic ++
          s.findings.toList.map LocatedFinding.diagnostic ∧
      KeepsFirst (Loader.loadStandard {}).catalogue tree s outcome.bag :=
  ofSource_keepsFirst (.standard .empty) _ _

/-- The error on the second declaration names the type and the line of the first. -/
example : (ofSource (Loader.loadStandard {}).catalogue ""
    "const c = 1;\nvar C: real; begin end.").toOption.map (fun outcome =>
      outcome.bag.errors.map fun d => (d.line, d.message)) =
    some [(2, "Redeclaration of variable 'C' in scope 'global'. " ++
      "It was already declared as 'integer' on line 1")] := by
  decide +kernel

end Outcome
end PascalCheck
