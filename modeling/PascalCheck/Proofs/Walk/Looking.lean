import PascalCheck.Proofs.Walk.Script

/-! # Steps that look and report

Most steps of a walk change nothing that a later step looks at: they look up names and routines, and
report what they find (`Looks`).  Three kinds of findings are made by none of them: that a name is
declared again, that a counter is modified in its loop, and that a variable is never used. -/
namespace PascalCheck

/-- The finding is neither that a name is declared again, nor that a counter is modified, nor that a
variable is unused. -/
def Finding.isOrdinary : Finding → Bool
  | redeclared _ _ _ _ _ | counterModified _ | unused _ _ => false
  | _ => true

/-- The state with more findings. -/
def AnalysisState.reporting (s : AnalysisState) (found : List LocatedFinding) : AnalysisState :=
  { s with findings := s.findings ++ found }

@[simp] theorem AnalysisState.findings_reporting (s : AnalysisState)
    (found : List LocatedFinding) :
    (s.reporting found).findings.toList = s.findings.toList ++ found := by
  simp [reporting]

theorem AnalysisState.reporting_nil (s : AnalysisState) : s.reporting [] = s := by
  simp [reporting]

/-- Findings that are made one after the other are made at once. -/
theorem AnalysisState.reporting_append (s : AnalysisState) (found more : List LocatedFinding) :
    (s.reporting found).reporting more = s.reporting (found ++ more) := by
  have hfindings : s.findings ++ found ++ more = s.findings ++ (found ++ more) :=
    Array.toList_inj.mp (by simp)
  simp only [reporting, hfindings]

namespace Analysis
variable {α β : Type} {catalogue : Catalogue}

/-- Every run of the step changes the state by ordinary findings only. -/
def Looks (m : Analysis α) : Prop :=
  ∀ s a s', StateT.run m s = .ok (a, s') →
    ∃ found, s' = s.reporting found ∧ ∀ f ∈ found, f.finding.isOrdinary = true

namespace Looks
variable {m n : Analysis α} {f : α → Analysis β}

/-- A step that leaves the state as it is. -/
theorem of_run (h : ∀ s a s', StateT.run m s = .ok (a, s') → s' = s) : Looks m := by
  intro s a s' hm
  exact ⟨[], (h s a s' hm).trans s.reporting_nil.symm, nofun⟩

theorem pure (a : α) : Looks (pure a) := by
  refine of_run fun s b s' h => ?_
  cases h
  rfl

theorem throw (fault : Fault) : Looks (throw fault : Analysis α) := by
  intro s a s' h
  cases h

/-- A report of an ordinary finding is a step that looks. -/
theorem report (line : Int) {finding : Finding} (h : finding.isOrdinary = true) :
    Looks (report line finding) := by
  intro s a s' hm
  cases hm
  refine ⟨[⟨finding, line⟩], ?_, List.forall_mem_singleton.mpr h⟩
  simp [AnalysisState.reporting]

/-- What is found by the second step stands behind what the first one finds. -/
theorem bind (h : Looks m) (hf : ∀ a, Looks (f a)) : Looks (m >>= f) := by
  intro s b s'' hb
  obtain ⟨a, s', hm, hfa⟩ := run_bind_eq_ok.mp hb
  obtain ⟨found, rfl, hfound⟩ := h s a s' hm
  obtain ⟨more, rfl, hmore⟩ := hf a _ b s'' hfa
  exact ⟨found ++ more, s.reporting_append found more,
    List.forall_mem_append.mpr ⟨hfound, hmore⟩⟩

theorem ite {p : Prop} [Decidable p] (hm : Looks m) (hn : Looks n) :
    Looks (if p then m else n) := by
  split
  · exact hm
  · exact hn

end Looks

theorem looks_symbol? (name : String) : Looks (symbol? name) := by
  refine .of_run fun s a s' h => ?_
  cases h
  rfl

theorem looks_routine? (name : String) : Looks (routine? name) := by
  refine .of_run fun s a s' h => ?_
  cases h
  rfl

/-- A rejected expression is reported and has the type of errors. -/
theorem looks_reject (line : Int) {finding : Finding} (h : finding.isOrdinary = true) :
    Looks (reject line finding) :=
  (Looks.report line h).bind fun _ => .pure _

/-- A call is looked at against its routine, and only its count of arguments or its name is
reported. -/
theorem looks_checkCall (name : String) (given : Nat) (line : Int) :
    Looks (checkCall catalogue name given line) := by
  unfold checkCall
  split
  · exact .ite (.pure _) (.report line rfl)
  · split
    · exact .ite (.pure _) (.report line rfl)
    · refine (looks_routine? name).bind fun found => ?_
      split
      · exact .ite (.pure _) (.report line rfl)
      · exact (looks_symbol? name).bind fun _ => .ite (.report line rfl) (.report line rfl)

/-- The type of a call is looked up; a built-in function without a result is a fault. -/
theorem looks_callType (name : String) (types : List Ty) (line : Int) :
    Looks (callType catalogue name types line) := by
  unfold callType
  dsimp only
  split
  · refine .ite ?_ (looks_reject line rfl)
    split
    · exact .pure _
    · exact .throw _
  · refine (looks_routine? name).bind fun found => ?_
    split
    · split
      · split
        · exact .pure _
        · exact (Looks.report line rfl).bind fun _ => .pure _
      · exact looks_reject line rfl
    · exact .ite (looks_reject line rfl) ((looks_symbol? name).bind fun _ =>
        .ite (looks_reject line rfl) (looks_reject line rfl))

theorem looks_binaryType (op : String) (l r : Ty) (line : Int) :
    Looks (binaryType op l r line) := by
  unfold binaryType
  split
  · exact .pure _
  · exact looks_reject line rfl

theorem looks_unaryType (op : String) (operand : Ty) (line : Int) :
    Looks (unaryType op operand line) := by
  unfold unaryType
  exact .ite (.pure _) (.ite (.ite (.pure _) (looks_reject line rfl))
    (.ite (.pure _) (looks_reject line rfl)))

/-- A literal changes nothing, whether its type has a name or not. -/
theorem looks_literalType (typeName : String) : Looks (literalType typeName) := by
  unfold literalType
  split
  · exact .pure _
  · exact .throw _

end Analysis
end PascalCheck
