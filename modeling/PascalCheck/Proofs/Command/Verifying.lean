import Mathlib.Algebra.GroupWithZero.Nat
import PascalCheck.Command.Verify
import PascalCheck.Proofs.Check.Totality
import PascalCheck.Proofs.Files.Below

/-! # How programs fare

The check of a file comes to an outcome unless the file is a directory (`Outcome.exists_ofFile_eq`).
A file that is checked has errors or has none; a program of a group passes if it has diagnostics
just where these are expected (`ProgramGroup.Suits`).  The tally counts each program once, and has
no faults as long as all of them pass (`verifyGroups_of_directories`). -/
namespace PascalCheck

open Text

namespace Outcome

/-- The path leads to a file, and this is what the check of its text gives. -/
def IsOf (outcome : Outcome) (catalogue : Catalogue) (files : FileTree) (path : Path) : Prop :=
  ∃ bytes, files.look path = some (.file bytes) ∧
    ofSource catalogue path.render (String.ofList (foldNewlines (Utf8.decode bytes))) = .ok outcome

section
variable {loader : Loader} {catalogue : Catalogue} {files : FileTree} {path : Path}

theorem ofFile_of_none (hlook : files.look path = none) :
    ofFile catalogue files path = .ok (missing path) := by
  simp only [ofFile, FileTree.readText, hlook]
  rfl

theorem ofFile_of_directory (hlook : files.look path = some .directory) :
    ofFile catalogue files path = .error (.isDirectory path.render) := by
  simp only [ofFile, FileTree.readText, hlook]
  rfl

theorem exists_ofFile_eq (hloader : loader.Reachable) {bytes : List UInt8}
    (hlook : files.look path = some (.file bytes)) : ∃ outcome,
      ofFile loader.catalogue files path = .ok outcome ∧
        outcome.IsOf loader.catalogue files path := by
  obtain ⟨outcome, -, houtcome, -, -⟩ := ofSource_returns hloader path.render
    (String.ofList (foldNewlines (Utf8.decode bytes)))
  refine ⟨outcome, ?_, bytes, hlook, houtcome⟩
  simp only [ofFile, FileTree.readText, hlook]
  exact houtcome

/-- A file has one outcome. -/
theorem IsOf.ofFile_eq {outcome : Outcome} (h : outcome.IsOf catalogue files path) :
    ofFile catalogue files path = .ok outcome := by
  obtain ⟨bytes, hlook, houtcome⟩ := h
  simp only [ofFile, FileTree.readText, hlook]
  exact houtcome

/-- What stands somewhere is checked if it is a file. -/
theorem ofFile_eq_ok_iff (hloader : loader.Reachable) (hlook : (files.look path).isSome = true)
    {outcome : Outcome} : ofFile loader.catalogue files path = .ok outcome ↔
      outcome.IsOf loader.catalogue files path := by
  constructor
  · intro h
    obtain ⟨entry, hentry⟩ := Option.isSome_iff_exists.mp hlook
    cases entry with
    | directory =>
      rw [ofFile_of_directory hentry] at h
      cases h
    | file bytes =>
      obtain ⟨other, hother, his⟩ := exists_ofFile_eq hloader hentry
      rw [hother] at h
      exact Except.ok.inj h ▸ his
  · exact IsOf.ofFile_eq

end
end Outcome

/-! ## Tallies -/

namespace Tally

/-- The number of programs that did not pass. -/
def faults (tally : Tally) : Nat :=
  tally.failed + tally.crashed

theorem total_count (tally : Tally) (standing : Standing) :
    (tally.count standing).total = tally.total + 1 := by
  cases standing <;> simp only [count, total] <;> omega

theorem faults_count_eq_zero {tally : Tally} {standing : Standing} :
    (tally.count standing).faults = 0 ↔ tally.faults = 0 ∧ standing = .passed := by
  cases standing <;> simp [count, faults]

theorem status_eq_zero {tally : Tally} : tally.status = 0 ↔ tally.faults = 0 := by
  simp [status, faults]

theorem status_eq (tally : Tally) : tally.status = 0 ∨ tally.status = 1 := by
  unfold status
  split
  · exact .inl rfl
  · exact .inr rfl

end Tally

namespace Command

theorem standing_eq_passed {expectsFindings : Bool} {result : Except Fault Outcome} :
    standing expectsFindings result = .passed ↔
      ∃ outcome, result = .ok outcome ∧ outcome.bag.isEmpty = !expectsFindings := by
  cases result with
  | error fault => simp [standing]
  | ok outcome => cases expectsFindings <;> cases hempty : outcome.bag.isEmpty <;>
      simp [standing, hempty]

section
variable (arguments : Arguments) (files : FileTree) (catalogue : Catalogue)

/-- The program passes. -/
def Passes (group : ProgramGroup) (path : Path) : Prop :=
  standing group.expectsFindings (Outcome.ofFile catalogue files path) = .passed

theorem tally_foldl_verifyFile (group : ProgramGroup) (progress : Progress) (paths : List Path) :
    let done := paths.foldl (verifyFile arguments files catalogue group) progress
    done.tally.total = progress.tally.total + paths.length ∧
      (done.tally.faults = 0 ↔
        progress.tally.faults = 0 ∧ ∀ path ∈ paths, Passes files catalogue group path) := by
  induction paths generalizing progress with
  | nil => simp
  | cons path rest ih =>
    obtain ⟨htotal, hfaults⟩ := ih (verifyFile arguments files catalogue group progress path)
    have hstep : (verifyFile arguments files catalogue group progress path).tally =
        progress.tally.count
          (standing group.expectsFindings (Outcome.ofFile catalogue files path)) := rfl
    simp only [List.foldl_cons]
    rw [htotal, hfaults, hstep, Tally.total_count, Tally.faults_count_eq_zero,
      List.forall_mem_cons, List.length_cons, and_assoc]
    exact ⟨by omega, Iff.rfl⟩

/-- The groups come to an end before one whose directory is not there. -/
theorem status_verifyGroups_of_missing (progress : Progress) {named : List ProgramGroup}
    (h : ∃ group ∈ named, files.isDirectory (.ofText group.directory) = false) :
    (verifyGroups arguments files catalogue progress named).status = 2 := by
  induction named generalizing progress with
  | nil =>
    obtain ⟨group, hgroup, -⟩ := h
    cases hgroup
  | cons group rest ih =>
    rw [verifyGroups]
    by_cases hdirectory : files.isDirectory (.ofText group.directory) = true
    · simp only [if_pos hdirectory]
      refine ih _ ?_
      obtain ⟨other, hother, hmissing⟩ := h
      rcases List.mem_cons.mp hother with rfl | hother
      · rw [hdirectory] at hmissing
        cases hmissing
      · exact ⟨other, hother, hmissing⟩
    · simp only [if_neg hdirectory]

/-- Where all directories are there, the last line is the tally of all programs, and the status is
that of the tally. -/
theorem verifyGroups_of_directories (progress : Progress) {named : List ProgramGroup}
    (h : ∀ group ∈ named, files.isDirectory (.ofText group.directory) = true) :
    let transcript := verifyGroups arguments files catalogue progress named
    ∃ tally : Tally, transcript.output.getLast? = some tally.render ∧
      transcript.status = tally.status ∧
      tally.total = progress.tally.total +
        (named.map fun group => (files.sources (.ofText group.directory)).length).sum ∧
      (tally.faults = 0 ↔ progress.tally.faults = 0 ∧ ∀ group ∈ named,
        ∀ path ∈ files.sources (.ofText group.directory),
          Passes files catalogue group path) := by
  induction named generalizing progress with
  | nil => exact ⟨progress.tally, by simp [verifyGroups], rfl, by simp, by simp⟩
  | cons group rest ih =>
    rw [List.forall_mem_cons] at h
    let opened := { progress with
      output := progress.output ++ [s!"--- {group.title}: {group.directory}"] }
    let closed := (files.sources (.ofText group.directory)).foldl
      (verifyFile arguments files catalogue group) opened
    obtain ⟨htotal, hfaults⟩ := tally_foldl_verifyFile arguments files catalogue group opened
      (files.sources (.ofText group.directory))
    obtain ⟨tally, hlast, hstatus, hrest, hfaultless⟩ :=
      ih { closed with output := closed.output ++ [""] } h.2
    -- The other groups go on from what the sources of this one leave behind.
    rw [verifyGroups]
    simp only [if_pos h.1]
    refine ⟨tally, hlast, hstatus, ?_, ?_⟩
    · rw [hrest, List.map_cons, List.sum_cons]
      change closed.tally.total + _ = _
      rw [htotal]
      change progress.tally.total + _ + _ = _
      omega
    · rw [hfaultless, List.forall_mem_cons]
      change closed.tally.faults = 0 ∧ _ ↔ _
      rw [hfaults]
      change (progress.tally.faults = 0 ∧ _) ∧ _ ↔ _
      rw [and_assoc]

end
end Command
end PascalCheck
