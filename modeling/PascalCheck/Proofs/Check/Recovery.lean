import PascalCheck.Proofs.Check.Totality
import PascalCheck.Proofs.Grammar.Acceptance
import PascalCheck.Proofs.Recovery.Erasure
import PascalCheck.Proofs.Recovery.MissingEnd
import PascalCheck.Proofs.Recovery.Walk

/-! # What the type of errors can hide

An expression of the type of errors silences the checks around it, so it ought to have been
reported.  It has been, with two exceptions: the absent end of a loop with a counter, which the
reader lets pass, and the names that a program declares with the type of errors by its name. -/
namespace PascalCheck

theorem Catalogue.yieldsNoError_standard : standard.YieldsNoError := by
  unfold YieldsNoError
  decide

namespace Outcome

/-- Nothing has been found to be in error if no diagnostic of a finding is an error. -/
theorem errors_eq_nil {state : AnalysisState}
    (h : state.diagnostics.any Diagnostic.isError = false) : state.errors = [] := by
  refine List.filter_eq_nil_iff.mpr fun found hfound hsevere => ?_
  refine List.any_eq_false.mp h found.diagnostic (List.mem_map_of_mem hfound) ?_
  exact hsevere

/-- Every fault of the reader is an error. -/
theorem faults_eq_nil {faults : List GrammarFault}
    (h : (faults.map GrammarFault.diagnostic).any Diagnostic.isError = false) : faults = [] := by
  cases faults with
  | nil => rfl
  | cons fault rest => cases h

end Outcome

namespace Recording
variable {catalogue : Catalogue} {p : Program} {given : List GivenType} {state : AnalysisState}

theorem exists_run (h : Analysis.run catalogue p = .ok state) :
    ∃ given, run catalogue p = .ok (given, state) := by
  have hsnd := (run_snd p).trans h
  cases hr : run catalogue p with
  | error =>
    rw [hr] at hsnd
    cases hsnd
  | ok r =>
    rw [hr] at hsnd
    cases hsnd
    exact ⟨r.1, rfl⟩

theorem run_program_of_run (h : run catalogue p = .ok (given, state)) :
    StateT.run (program catalogue p).withRecord {} = .ok (((), given), state) := by
  unfold run at h
  cases hp : StateT.run (program catalogue p).withRecord {} with
  | error =>
    rw [hp] at h
    cases h
  | ok r =>
    rw [hp] at h
    cases h
    rfl

/-- What is recorded on a run without errors is accounted for by the declarations. -/
theorem isAccounted_of_run (hc : catalogue.YieldsNoError)
    (h : run catalogue p = .ok (given, state)) (hquiet : state.errors = []) {lenient : Bool}
    {ts : List Token} (hp : Grammar.DerivesProgram lenient p ts) :
    ∀ g ∈ given, g.IsAccounted (NamesError p.toNode.typings) lenient := by
  have haccounts : Accounts (NamesError p.toNode.typings) lenient True (program catalogue p)
      Analysis.anything :=
    accounts_program hc hp isCovered_namesError
  obtain ⟨-, hkeeps⟩ := haccounts {} ((), given) state (run_program_of_run h)
  exact (hkeeps hquiet trivial AnalysisState.errorsWithin_empty).2.2

end Recording

namespace Outcome

/-- **Without an error, an expression is given the type of errors for two causes only.**  The check
of every source with the standard routines gives the types that the run with a record gives, and
unless it finds an error, an absent end of a loop with a counter is given the type of errors
wherever there is one, and any other expression is given it only from a name that the program
declares with that type. -/
theorem hasErrors_or_missing_or_namesError (name source : String) :
    ∃ outcome tree given state,
      ofSource .standard name source = .ok outcome ∧ outcome.program = some tree ∧
      outcome.table = some state.table ∧ Analysis.run .standard tree = .ok state ∧
      Recording.run .standard tree = .ok (given, state) ∧
      (outcome.bag.hasErrors = true ∨
        (GivenType.missing ∈ given ↔ tree.isComplete false = false) ∧
        ∀ g ∈ given, g.ty = .error →
          g = .missing ∨ ∃ used ∈ g.expression.typeNames, tree.NamesError used) := by
  obtain ⟨state, hstate⟩ := Analysis.run_of_isWalkable Catalogue.hasResults_standard
    (Grammar.isWalkable_parse (Lexed.ofSource source).tokens)
  obtain ⟨given, hgiven⟩ := Recording.exists_run hstate
  obtain ⟨haccepted, hstrict⟩ := Grammar.parse_complete_iff_strict source
  have hresults := Catalogue.yieldsNoError_standard
  simp only [ofSource, hstate]
  refine ⟨_, _, given, state, rfl, rfl, rfl, hstate, hgiven, ?_⟩
  refine (Classical.em _).imp_right fun hclean => ?_
  simp only [Bag.hasErrors, List.any_append, Bool.or_eq_true, not_or, Bool.not_eq_true] at hclean
  obtain ⟨⟨-, hfaults⟩, hfindings⟩ := hclean
  have hfaultless := faults_eq_nil hfaults
  have hquiet := errors_eq_nil hfindings
  obtain ⟨-, hderives⟩ := haccepted.mp hfaultless
  have haccounts := Recording.isAccounted_of_run hresults hgiven hquiet hderives
  refine ⟨⟨fun hmissing => ?_, fun hincomplete => ?_⟩, fun g hg herror => ?_⟩
  · -- In a derivation of the strict grammar nothing is absent that is given a type.
    refine Bool.eq_false_iff.mpr fun hcomplete => ?_
    have hstrictly := hstrict.mp ⟨hfaultless, hcomplete⟩
    rcases Recording.isAccounted_of_run hresults hgiven hquiet hstrictly _ hmissing rfl with
      ⟨h, -⟩ | ⟨_, h, -⟩
    · cases h
    · cases h
  · rcases Recording.strict_or_records hderives with hstrictly | hrecords
    · rw [(hstrict.mpr hstrictly).2] at hincomplete
      cases hincomplete
    · exact hrecords {} () given state (Recording.run_program_of_run hgiven)
  · rcases haccounts g hg herror with ⟨-, habsent⟩ | hfaulty
    · obtain ⟨e, ty⟩ := g
      obtain rfl : e = .absent := habsent
      obtain rfl : ty = .error := herror
      exact .inl rfl
    · exact .inr hfaulty

/-- A name that is declared with the type of errors can be used without a report. -/
example :
    let x : VarDeclaration := ⟨[⟨"x", 1⟩], ⟨"error", false⟩, 1⟩
    let store : Node := .assignment "x" (.identifier "x" 1) .absent 1
    let p : Program := ⟨"p", [.varSection [x] 1], .block [store] 1, 1⟩
    (Recording.run .standard p).toOption.map (fun r => (r.1.map (·.ty), r.2.errors)) =
      some ([.error], []) := by
  rfl

end Outcome
end PascalCheck
