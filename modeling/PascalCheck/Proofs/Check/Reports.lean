import PascalCheck.Proofs.Check.Totality
import PascalCheck.Proofs.Token.Order
import PascalCheck.Proofs.Walk.Marks

/-! # What the bag of a check shows

The diagnostics of a check come in the order of its phases, so those of each phase can be told from
the rest.  Those of the last phase are the findings of the analysis, one by one and in order
(`Bag.ShowsFindings`): what is found at a place stands right behind all that was found in front of
it (`Bag.ShowsBehind`).  And of some findings the kind can be read off the text of the diagnostic: a
modified counter, a name that is declared again, a wrong number of arguments, a value that is
missed, and a variable that is not used. -/
namespace PascalCheck

/-! ## Phases -/

/-- The grammar reports in the second phase. -/
theorem GrammarFault.phase_diagnostic (fault : GrammarFault) :
    fault.diagnostic.phase = .syntactic := rfl

/-- The analysis reports in the last phase. -/
theorem LocatedFinding.phase_diagnostic (found : LocatedFinding) :
    found.diagnostic.phase = .semantic := rfl

/-- What is found in error makes an error of the bag. -/
@[simp] theorem LocatedFinding.isError_diagnostic (found : LocatedFinding) :
    found.diagnostic.isError = decide (found.finding.severity = .error) := rfl

theorem AnalysisState.phase_of_mem_diagnostics {s : AnalysisState} {d : Diagnostic}
    (h : d ∈ s.diagnostics) : d.phase = .semantic := by
  obtain ⟨found, -, rfl⟩ := List.mem_map.mp h
  exact found.phase_diagnostic

namespace Bag
variable {lexical syntactic semantic : List Diagnostic}

/-- In a bag that is filled phase by phase, the diagnostics of each phase are those it put there. -/
theorem ofPhase_of_phases (hlexical : ∀ d ∈ lexical, d.phase = .lexical)
    (hsyntactic : ∀ d ∈ syntactic, d.phase = .syntactic)
    (hsemantic : ∀ d ∈ semantic, d.phase = .semantic) :
    ofPhase ⟨lexical ++ syntactic ++ semantic⟩ .lexical = lexical ∧
      ofPhase ⟨lexical ++ syntactic ++ semantic⟩ .syntactic = syntactic ∧
      ofPhase ⟨lexical ++ syntactic ++ semantic⟩ .semantic = semantic := by
  -- Of the diagnostics of one phase a filter takes all or none.
  have hfilter : ∀ {ds : List Diagnostic} {phase : Phase}, (∀ d ∈ ds, d.phase = phase) →
      ∀ other, ds.filter (fun d => decide (d.phase = other)) =
        if other = phase then ds else [] := by
    intro ds phase hds other
    by_cases hsame : other = phase
    · rw [if_pos hsame, List.filter_eq_self]
      intro d hd
      exact decide_eq_true ((hds d hd).trans hsame.symm)
    · rw [if_neg hsame, List.filter_eq_nil_iff]
      intro d hd heq
      exact hsame ((of_decide_eq_true heq).symm.trans (hds d hd))
  refine ⟨?_, ?_, ?_⟩ <;>
    simp [ofPhase, hfilter hlexical, hfilter hsyntactic, hfilter hsemantic]

end Bag

namespace Outcome

/-- What a check of a source is made of, phase by phase. -/
theorem exists_phases_of_source {loader : Loader} (h : loader.Reachable) (name source : String) :
    ∃ outcome s, ofSource loader.catalogue name source = .ok outcome ∧
      Analysis.run loader.catalogue (Grammar.parse (Lexed.ofSource source).tokens).value = .ok s ∧
      outcome.program = some (Grammar.parse (Lexed.ofSource source).tokens).value ∧
      outcome.table = some s.table ∧
      outcome.bag.entries = outcome.bag.ofPhase .lexical ++ outcome.bag.ofPhase .syntactic ++
        outcome.bag.ofPhase .semantic ∧
      outcome.bag.ofPhase .lexical = (Lexed.ofSource source).diagnostics ∧
      outcome.bag.ofPhase .syntactic =
        (Grammar.parse (Lexed.ofSource source).tokens).faults.map GrammarFault.diagnostic ∧
      outcome.bag.ofPhase .semantic = s.diagnostics := by
  obtain ⟨outcome, s, hcheck, hrun, hprogram, htable, hentries⟩ :=
    exists_run_of_source h name source
  have hlexical : ∀ d ∈ (Lexed.ofSource source).diagnostics, d.phase = .lexical :=
    fun _ hd => Lexed.phase_of_mem_diagnostics hd
  have hsyntactic : ∀ d ∈ (Grammar.parse (Lexed.ofSource source).tokens).faults.map
      GrammarFault.diagnostic, d.phase = .syntactic := by
    intro d hd
    obtain ⟨fault, -, rfl⟩ := List.mem_map.mp hd
    exact fault.phase_diagnostic
  have hphases := Bag.ofPhase_of_phases hlexical hsyntactic
    fun _ hd => AnalysisState.phase_of_mem_diagnostics (s := s) hd
  rw [← hentries] at hphases
  obtain ⟨hfirst, hsecond, hthird⟩ := hphases
  refine ⟨outcome, s, hcheck, hrun, hprogram, htable, ?_, hfirst, hsecond, hthird⟩
  rw [hfirst, hsecond, hthird, hentries]

end Outcome

/-! ## Findings -/

namespace Bag
variable (bag : Bag) (s here : AnalysisState) (found : List LocatedFinding)

/-- Of the last phase, the bag has the findings of the analysis, one by one, and nothing else. -/
def ShowsFindings : Prop :=
  bag.ofPhase .semantic = s.findings.toList.map LocatedFinding.diagnostic

/-- The bag has the findings right behind those that had been made when the analysis came to the
state. -/
def ShowsBehind : Prop :=
  (here.findings.toList ++ found).map LocatedFinding.diagnostic <+: bag.ofPhase .semantic

variable {bag s here found}

/-- What a step finds, of which the analysis takes nothing back, is in the bag. -/
theorem ShowsFindings.behind (h : bag.ShowsFindings s) {next : AnalysisState}
    (hnext : next.findings.toList = here.findings.toList ++ found)
    (hkept : next.findings.toList <+: s.findings.toList) : bag.ShowsBehind here found := by
  unfold ShowsBehind
  rw [h, ← hnext]
  exact hkept.map _

/-- If a kind of diagnostics comes from a kind of findings, the bag has as many of the one as the
analysis has of the other, in the same order. -/
theorem ShowsFindings.filter_entries (h : bag.ShowsFindings s) {isKind : Diagnostic → Bool}
    {isFound : Finding → Bool} (hphase : ∀ d, isKind d = true → d.phase = .semantic)
    (hkind : ∀ f : LocatedFinding, isKind f.diagnostic = isFound f.finding) :
    bag.entries.filter isKind =
      (s.findings.toList.filter (isFound ·.finding)).map LocatedFinding.diagnostic := by
  have hsemantic : bag.entries.filter isKind = (bag.ofPhase .semantic).filter isKind := by
    rw [ofPhase, List.filter_filter]
    refine List.filter_congr fun d _ => ?_
    cases hd : isKind d with
    | true => simp [hphase d hd]
    | false => rfl
  rw [hsemantic, h, List.filter_map]
  exact congrArg _ (List.filter_congr fun f _ => hkind f)

end Bag

/-- What a check of a source is made of, down to the findings of the analysis. -/
theorem Outcome.exists_findings_of_source {loader : Loader} (h : loader.Reachable)
    (name source : String) :
    ∃ outcome s, ofSource loader.catalogue name source = .ok outcome ∧
      Analysis.run loader.catalogue (Grammar.parse (Lexed.ofSource source).tokens).value = .ok s ∧
      outcome.program = some (Grammar.parse (Lexed.ofSource source).tokens).value ∧
      outcome.table = some s.table ∧
      outcome.bag.entries = (Lexed.ofSource source).diagnostics ++
        (Grammar.parse (Lexed.ofSource source).tokens).faults.map GrammarFault.diagnostic ++
          s.findings.toList.map LocatedFinding.diagnostic ∧
      outcome.bag.ShowsFindings s := by
  obtain ⟨outcome, s, hcheck, hrun, hprogram, htable, hentries, hlexical, hsyntactic, hsemantic⟩ :=
    exists_phases_of_source h name source
  refine ⟨outcome, s, hcheck, hrun, hprogram, htable, ?_, hsemantic⟩
  rw [hentries, hlexical, hsyntactic, hsemantic]
  rfl

/-! ## Kinds of findings -/

namespace Diagnostic

/-- The diagnostic is of the analysis, as grave as that, and begins with the text. -/
def begins (severity : Severity) (start : String) (d : Diagnostic) : Bool :=
  d.phase = .semantic && d.severity = severity && start.toList.isPrefixOf d.message.toList

/-- The diagnostic ends with the text. -/
def ends (finish : String) (d : Diagnostic) : Bool :=
  finish.toList.isSuffixOf d.message.toList

theorem phase_of_begins {severity : Severity} {start : String} {d : Diagnostic}
    (h : d.begins severity start = true) : d.phase = .semantic := by
  unfold begins at h
  rw [Bool.and_eq_true, Bool.and_eq_true] at h
  exact of_decide_eq_true h.1.1

/-- The diagnostic says that a counter is modified in its loop. -/
def isModification (d : Diagnostic) : Bool :=
  d.begins .error "Cannot modify the control variable '"

/-- The diagnostic says that a variable, a constant or a parameter is declared again. -/
def isRedeclaration (d : Diagnostic) : Bool :=
  d.begins .error "Redeclaration of variable '" || d.begins .error "Redeclaration of constant '" ||
    d.begins .error "Redeclaration of parameter '"

/-- The diagnostic says that a call has a wrong number of arguments. -/
def isArgumentCount (d : Diagnostic) : Bool :=
  (d.begins .error "The function '" || d.begins .error "The procedure '") && d.ends " given"

/-- The diagnostic says that a variable has no value where it is used. -/
def isMissedValue (d : Diagnostic) : Bool :=
  d.begins .warning "Variable '" && d.ends ("is used before being initialized. " ++
    "Its value is undefined and may cause unpredictable results")

/-- The diagnostic says that a variable is declared but never used. -/
def isUnused (d : Diagnostic) : Bool :=
  d.begins .warning "Variable '" && d.ends ("but never used. " ++
    "Consider removing it or check whether it should be used")

end Diagnostic

namespace Finding

/-- The finding is that a call has a wrong number of arguments. -/
def isArgumentCount : Finding → Bool
  | builtinArity _ _ _ _ | routineArity _ _ _ _ => true
  | _ => false

/-- The finding is that a variable has no value where it is used. -/
def isMissedValue : Finding → Bool
  | uninitialized _ => true
  | _ => false

end Finding

namespace LocatedFinding
variable (f : LocatedFinding)

/-- The diagnostic of a finding is as grave as the finding, and begins as its message does. -/
theorem begins_diagnostic (severity : Severity) (start : String) :
    f.diagnostic.begins severity start =
      (decide (f.finding.severity = severity) &&
        start.toList.isPrefixOf f.finding.message.toList) := rfl

/-- It ends as the message of the finding does. -/
theorem ends_diagnostic (finish : String) :
    f.diagnostic.ends finish =
      finish.toList.reverse.isPrefixOf f.finding.message.toList.reverse := rfl

/-- **Modified counters are told by their text**: no other message begins so. -/
theorem isModification_diagnostic : f.diagnostic.isModification = f.finding.isModification := by
  rw [Diagnostic.isModification, begins_diagnostic]
  unfold Finding.message
  cases f.finding <;> (simp only [String.toList_append]; rfl)

/-- **Names that are declared again are told by their text.**  The message about a routine begins
alike, but goes on with another word. -/
theorem isRedeclaration_diagnostic :
    f.diagnostic.isRedeclaration = f.finding.isRedeclaration := by
  rw [Diagnostic.isRedeclaration, begins_diagnostic, begins_diagnostic, begins_diagnostic]
  unfold Finding.message
  cases f.finding with
  | redeclared what name scope ty line =>
    cases what <;> (simp only [String.toList_append]; rfl)
  | routineRedeclared kind name previous line =>
    cases kind <;> (simp only [String.toList_append]; rfl)
  | _ => simp only [String.toList_append]; rfl

/-- **Wrong numbers of arguments are told by their text**, be the routine built in or not. -/
theorem isArgumentCount_diagnostic :
    f.diagnostic.isArgumentCount = f.finding.isArgumentCount := by
  rw [Diagnostic.isArgumentCount, begins_diagnostic, begins_diagnostic, ends_diagnostic]
  unfold Finding.message
  cases f.finding with
  | builtinArity kind name arity given | routineArity kind name expected given =>
    cases kind <;> (simp only [String.toList_append, List.reverse_append]; rfl)
  | condition statement ty => cases statement <;> (simp only [String.toList_append]; rfl)
  | _ => simp only [String.toList_append]; rfl

/-- **Values that are missed are told by their text.** -/
theorem isMissedValue_diagnostic : f.diagnostic.isMissedValue = f.finding.isMissedValue := by
  rw [Diagnostic.isMissedValue, begins_diagnostic, ends_diagnostic]
  unfold Finding.message
  cases f.finding <;>
    (simp only [String.toList_append, List.reverse_append]; rfl)

/-- **Unused variables are told by their text.**  The other warning on a variable ends otherwise. -/
theorem isUnused_diagnostic : f.diagnostic.isUnused = f.finding.isUnused := by
  rw [Diagnostic.isUnused, begins_diagnostic, ends_diagnostic]
  unfold Finding.message
  cases f.finding <;>
    (simp only [String.toList_append, List.reverse_append]; rfl)

end LocatedFinding

namespace Bag.ShowsFindings
variable {bag : Bag} {s : AnalysisState}

/-- The bag has the modified counters that the analysis finds. -/
theorem modifications (h : bag.ShowsFindings s) :
    bag.entries.filter Diagnostic.isModification = s.modified.map LocatedFinding.diagnostic :=
  h.filter_entries (fun _ => Diagnostic.phase_of_begins) LocatedFinding.isModification_diagnostic

/-- The bag has the names declared again that the analysis finds. -/
theorem redeclarations (h : bag.ShowsFindings s) :
    bag.entries.filter Diagnostic.isRedeclaration =
      s.redeclared.map LocatedFinding.diagnostic := by
  refine h.filter_entries (fun d hd => ?_) LocatedFinding.isRedeclaration_diagnostic
  unfold Diagnostic.isRedeclaration at hd
  rw [Bool.or_eq_true, Bool.or_eq_true] at hd
  rcases hd with (hd | hd) | hd <;> exact Diagnostic.phase_of_begins hd

/-- The bag has the unused variables that the analysis finds. -/
theorem unusedVariables (h : bag.ShowsFindings s) :
    bag.entries.filter Diagnostic.isUnused = s.unusedFound.map LocatedFinding.diagnostic :=
  h.filter_entries (fun _ hd => Diagnostic.phase_of_begins (Bool.and_eq_true_iff.mp hd).1)
    LocatedFinding.isUnused_diagnostic

end Bag.ShowsFindings
end PascalCheck
