import PascalCheck.Analysis.Summary
import PascalCheck.Proofs.Walk.Marks
import PascalCheck.Proofs.Walk.Positions

/-! # The end of a run

Behind the walk a run reports what only all of its symbols show: that changes neither the table nor
the marks, so that a run ends with those that the walk comes to. -/
namespace PascalCheck
namespace Analysis
variable {catalogue : Catalogue} {p : Program} {s s' : AnalysisState}

theorem looks_reportGroups {finding : Symbol → List Symbol → Finding}
    (h : ∀ first sites, (finding first sites).isOrdinary = true) (groups : List NameGroup) :
    Looks (reportGroups finding groups) := by
  induction groups with
  | nil => exact .pure ()
  | cons group rest ih =>
    unfold reportGroups
    split
    · exact (Looks.pure ()).bind fun _ => ih
    · exact (Looks.report _ (h _ _)).bind fun _ => ih

/-- The reports that variables are unused. -/
def unusedReports (unused : List NumberedSymbol) : List LocatedFinding :=
  unused.map fun symbol => ⟨.unused symbol.1.name symbol.1.line, symbol.1.line⟩

theorem isUnmarked_of_mem_unusedReports {unused : List NumberedSymbol} {f : LocatedFinding}
    (hmem : f ∈ unusedReports unused) : f.finding.IsUnmarked := by
  obtain ⟨symbol, -, rfl⟩ := List.mem_map.mp hmem
  exact ⟨rfl, rfl⟩

theorem filter_isUnused_unusedReports (unused : List NumberedSymbol) :
    (unusedReports unused).filter (·.finding.isUnused) = unusedReports unused := by
  refine List.filter_eq_self.mpr fun f hmem => ?_
  obtain ⟨symbol, -, rfl⟩ := List.mem_map.mp hmem
  rfl

theorem run_reportUnused {unused : List NumberedSymbol}
    (h : StateT.run (reportUnused unused) s = .ok ((), s')) :
    s' = s.reporting (unusedReports unused) := by
  induction unused generalizing s with
  | nil =>
    cases h
    exact (AnalysisState.reporting_nil _).symm
  | cons symbol rest ih =>
    obtain ⟨_, s₁, hreport, hrest⟩ := run_bind_eq_ok.mp h
    rw [ih hrest, run_report hreport, s.reporting_append]
    rfl

/-- **What is found behind the walk**: what all of the names show, and then the unused variables. -/
theorem exists_summary (h : StateT.run summarize s = .ok ((), s')) :
    ∃ found, (∀ f ∈ found, f.finding.isOrdinary = true) ∧
      s' = (s.reporting found).reporting (unusedReports s.table.unused) := by
  obtain ⟨_, s₁, hget, h⟩ := run_bind_eq_ok.mp h
  cases hget
  obtain ⟨_, s₁, hshadowing, h⟩ := run_bind_eq_ok.mp h
  obtain ⟨_, s₂, htypes, h⟩ := run_bind_eq_ok.mp h
  obtain ⟨found, rfl, hfound⟩ := looks_reportGroups (fun _ _ => rfl) _ _ _ _ hshadowing
  obtain ⟨more, rfl, hmore⟩ := looks_reportGroups (fun _ _ => rfl) _ _ _ _ htypes
  refine ⟨found ++ more, List.forall_mem_append.mpr ⟨hfound, hmore⟩, ?_⟩
  rw [run_reportUnused h, s.reporting_append]

/-- What is found behind the walk about unused variables is what the table says of them. -/
theorem run_summarize (h : StateT.run summarize s = .ok ((), s')) :
    s'.table = s.table ∧ s'.unusedFound = s.unusedFound ++
      s.table.unused.map fun symbol => ⟨.unused symbol.1.name symbol.1.line, symbol.1.line⟩ := by
  obtain ⟨found, hfound, rfl⟩ := exists_summary h
  refine ⟨rfl, ?_⟩
  have hunused := filter_isUnused_unusedReports s.table.unused
  rw [← s.unusedFound_reporting hfound]
  unfold AnalysisState.unusedFound
  rw [AnalysisState.findings_reporting, List.filter_append, hunused]
  rfl

theorem marks_summarize (h : StateT.run summarize s = .ok ((), s')) :
    s'.marks = s.marks ∧ s.Continues s' := by
  obtain ⟨found, hfound, rfl⟩ := exists_summary h
  have hordinary := s.marks_reporting fun f hf => Finding.isUnmarked_of_isOrdinary (hfound f hf)
  have hunused : ((s.reporting found).reporting (unusedReports s.table.unused)).marks =
      (s.reporting found).marks :=
    AnalysisState.marks_reporting _ fun f hf => isUnmarked_of_mem_unusedReports hf
  exact ⟨hunused.trans hordinary, (AnalysisState.Continues.reporting s found).trans
    (.reporting _ _)⟩

theorem run_eq_ok (h : run catalogue p = .ok s') :
    ∃ s, Reaches catalogue p.toNode.script {} s ∧ StateT.run summarize s = .ok ((), s') := by
  unfold run program at h
  cases hrun : StateT.run (do walk catalogue p.toNode; summarize) ({} : AnalysisState) with
  | error fault =>
    rw [hrun] at h
    cases h
  | ok result =>
    rw [hrun] at h
    cases h
    obtain ⟨_, s, hwalk, hsummarize⟩ := run_bind_eq_ok.mp hrun
    exact ⟨s, reaches_of_walk hwalk, hsummarize⟩

/-- **A run ends with the table and the marks that its walk comes to**, and takes none of its
findings back. -/
theorem exists_reaches_of_run (h : run catalogue p = .ok s') :
    ∃ s, Reaches catalogue (p.positions.map Position.action) {} s ∧ s'.table = s.table ∧
      s'.marks = s.marks ∧ s.Continues s' := by
  obtain ⟨s, hreaches, hsummarize⟩ := run_eq_ok h
  rw [← p.map_action_positions] at hreaches
  exact ⟨s, hreaches, (run_summarize hsummarize).1, marks_summarize hsummarize⟩

end Analysis
end PascalCheck
