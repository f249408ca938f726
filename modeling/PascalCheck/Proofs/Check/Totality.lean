import PascalCheck.Proofs.Analysis.Totality
import PascalCheck.Proofs.Builtin.Orderly

/-! # Every check gives a result

Whatever has been loaded, the built-in functions have results, because nothing but a function with a
result is ever put among them; and the reader builds only trees that can be walked.  So no source
text stops a check. -/
namespace PascalCheck

namespace Catalogue

/-- Every function has a result. -/
def HasResults (catalogue : Catalogue) : Prop :=
  ∀ f ∈ catalogue.functions, f.isFunction = true

theorem IsOrderly.hasResults {catalogue : Catalogue} (h : catalogue.IsOrderly) :
    catalogue.HasResults :=
  h.isFunction_of_mem_functions

theorem hasResults_standard : standard.HasResults :=
  isOrderly_standard.hasResults

end Catalogue

theorem Loader.Reachable.hasResults {loader : Loader} (h : loader.Reachable) :
    loader.catalogue.HasResults :=
  h.isOrderly.hasResults

/-! ## The check -/

namespace Outcome

/-- **No source text stops a check**: with any built-in routines that can be loaded, the check of
any text gives an outcome, and its tree is one whose walk needs no type without a name and meets no
part without a rule. -/
theorem ofSource_returns {loader : Loader} (h : loader.Reachable) (name source : String) :
    ∃ outcome tree, ofSource loader.catalogue name source = .ok outcome ∧
      outcome.program = some tree ∧ tree.toNode.isWalkable = true := by
  have htree := Grammar.isWalkable_parse (Lexed.ofSource source).tokens
  obtain ⟨state, hstate⟩ := Analysis.run_of_isWalkable h.hasResults htree
  simp only [ofSource, hstate]
  exact ⟨_, _, rfl, rfl, htree⟩

theorem ofSource_returns_standard_and_table :
    ∃ outcome tree,
      ofSource (Loader.loadStandard {} |>.loadTable [⟨"Twice", "Integer", 1, 1⟩] []).catalogue
        "broken" "const c = ; begin for := while twice( 'a' end" = .ok outcome ∧
      outcome.program = some tree ∧ tree.toNode.isWalkable = true :=
  ofSource_returns (.table _ _ (.standard .empty)) _ _

/-- What the check of a source is made of: its tree, the analysis of that, and what the reader, the
grammar and the analysis have to say. -/
theorem exists_run_of_source {loader : Loader} (h : loader.Reachable) (name source : String) :
    ∃ outcome s, ofSource loader.catalogue name source = .ok outcome ∧
      Analysis.run loader.catalogue (Grammar.parse (Lexed.ofSource source).tokens).value = .ok s ∧
      outcome.program = some (Grammar.parse (Lexed.ofSource source).tokens).value ∧
      outcome.table = some s.table ∧
      outcome.bag.entries = (Lexed.ofSource source).diagnostics ++
        (Grammar.parse (Lexed.ofSource source).tokens).faults.map GrammarFault.diagnostic ++
          s.diagnostics := by
  obtain ⟨s, hs⟩ := Analysis.run_of_isWalkable h.hasResults
    (Grammar.isWalkable_parse (Lexed.ofSource source).tokens)
  simp only [ofSource, hs]
  exact ⟨_, s, rfl, rfl, rfl, rfl, rfl⟩

end Outcome
end PascalCheck
