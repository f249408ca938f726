import PascalCheck.Analysis.Summary
import PascalCheck.Proofs.LetterCase.Walk

/-! # The analysis does not see the case of names

What the symbols of a run show is found by names in lower case, so that it is found in any letter
case; with the walk, this gives the whole analysis. -/
namespace PascalCheck

/-! ## Groups of symbols -/

/-- The symbol with its number, and its name in lower case. -/
def NumberedSymbol.foldName (s : NumberedSymbol) : NumberedSymbol :=
  (s.1.foldName, s.2)

/-- The group with the names of its symbols in lower case. -/
def NameGroup.foldNames (group : NameGroup) : NameGroup :=
  { group with members := group.members.map NumberedSymbol.foldName }

namespace ScopeTable
variable (table : ScopeTable)

/-- The numbers of symbols do not depend on names. -/
theorem numbered_foldNames :
    table.foldNames.numbered = table.numbered.map NumberedSymbol.foldName := by
  simp only [numbered, foldNames, Array.toList_map, List.zipIdx_map]
  rfl

/-- Nor does it depend on names which variables are unused. -/
theorem unused_foldNames : table.foldNames.unused = table.unused.map NumberedSymbol.foldName := by
  simp only [unused, numbered_foldNames, List.filter_map]
  rfl

theorem nameable_foldNames :
    table.foldNames.nameable = table.nameable.map NumberedSymbol.foldName := by
  simp only [nameable, numbered_foldNames, List.filter_map]
  rfl

/-- Symbols are grouped by their names in lower case, so that the groups are the same. -/
theorem groups_foldNames : table.foldNames.groups = table.groups.map NameGroup.foldNames := by
  have hkey : ∀ s : NumberedSymbol,
      Text.lower (NumberedSymbol.foldName s).1.name = Text.lower s.1.name :=
    fun s => Text.lower_toLower s.1.name
  simp only [groups, nameable_foldNames, List.map_map, Function.comp_def, hkey, List.filter_map,
    NameGroup.foldNames]

/-- Whether a group spans several scopes does not depend on names. -/
theorem ambiguities_foldNames :
    table.foldNames.ambiguities = table.ambiguities.map NameGroup.foldNames := by
  simp only [ambiguities, groups_foldNames, List.filter_map, Function.comp_def,
    NameGroup.foldNames, List.length_map]

theorem typeAmbiguities_foldNames :
    table.foldNames.typeAmbiguities = table.typeAmbiguities.map NameGroup.foldNames := by
  simp only [typeAmbiguities, ambiguities_foldNames, List.filter_map, Function.comp_def,
    NameGroup.foldNames, List.any_map]
  rfl

end ScopeTable

/-! ## Reports -/

namespace Analysis
variable {catalogue : Catalogue}

/-- Groups are reported one by one, each with the names of its members. -/
theorem foldsTo_reportGroups {finding : Symbol → List Symbol → Finding}
    (h : ∀ first sites, finding first.foldName (sites.map Symbol.foldName) =
      (finding first sites).foldNames) (groups : List NameGroup) :
    FoldsTo id (reportGroups finding groups)
      (reportGroups finding (groups.map NameGroup.foldNames)) := by
  induction groups with
  | nil => exact .pure rfl
  | cons group groups ih =>
    have hmembers : group.foldNames.members.map (·.1) =
        (group.members.map (·.1)).map Symbol.foldName := by
      simp only [NameGroup.foldNames, List.map_map]
      rfl
    cases hm : group.members.map (·.1) with
    | nil =>
      simp only [List.map_cons, reportGroups, hmembers, hm, List.map_nil]
      exact ih
    | cons first more =>
      simp only [List.map_cons, reportGroups, hmembers, hm]
      exact (foldsTo_report first.line (h first (first :: more))).bind fun _ => ih

theorem foldsTo_reportUnused (symbols : List NumberedSymbol) :
    FoldsTo id (reportUnused symbols)
      (reportUnused (symbols.map NumberedSymbol.foldName)) := by
  induction symbols with
  | nil => exact .pure rfl
  | cons s rest ih => exact (foldsTo_report s.1.line rfl).bind fun _ => ih

/-- **What is found behind the walk is the same up to the case of names.** -/
theorem foldsTo_summarize : FoldsTo id summarize summarize := by
  refine FoldsTo.get.bind fun s => ?_
  have hambiguities : s.foldNames.table.ambiguities = s.table.ambiguities.map _ :=
    s.table.ambiguities_foldNames
  have htypes : s.foldNames.table.typeAmbiguities = s.table.typeAmbiguities.map _ :=
    s.table.typeAmbiguities_foldNames
  have hunused : s.foldNames.table.unused = s.table.unused.map _ := s.table.unused_foldNames
  dsimp only
  rw [hambiguities, htypes, hunused]
  exact (foldsTo_reportGroups (fun _ _ => rfl) _).bind fun _ =>
    (foldsTo_reportGroups (fun _ _ => rfl) _).bind fun _ => foldsTo_reportUnused _

/-- **The analysis of a program with its names in lower case** ends in the state in which that of
the program ends, with names in lower case. -/
theorem run_foldNames (p : Program) :
    run catalogue p.foldNames = (run catalogue p).map AnalysisState.foldNames := by
  have hprogram : FoldsTo id (program catalogue p) (program catalogue p.foldNames) :=
    (foldsTo_walk p.toNode).bind fun _ => foldsTo_summarize
  have hinitial : ({} : AnalysisState).foldNames = {} := by
    simp [AnalysisState.foldNames, ScopeTable.foldNames, ScopeTable.empty, ScopeEvent.foldName]
  have hrun := hprogram {}
  rw [hinitial] at hrun
  unfold run
  rw [hrun]
  cases StateT.run (program catalogue p) {} with
  | error => rfl
  | ok r => rfl

end Analysis
end PascalCheck
