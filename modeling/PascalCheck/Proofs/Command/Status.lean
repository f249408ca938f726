import PascalCheck.Proofs.Command.Verifying

/-! # What the status of a command says

A command whose further routines could not be loaded, or that is given nothing to verify, stops with
status two before it looks at a program (`Command.IsRefused`).  Otherwise the status of a check says
whether one of the files is missing or has errors, and that of a verification whether a directory is
missing or a program does not fare as expected (`Command.run_tellsTruth`). -/
namespace PascalCheck
namespace Command

variable {arguments : Arguments} {files : FileTree} {loaded : Loaded}

/-! ## Loading -/

/-- Further routines are given, and something of them could not be loaded. -/
def FailsToLoad (arguments : Arguments) (files : FileTree) : Prop :=
  arguments.builtins ≠ "" ∧ ∃ loaded,
    (Loader.loadStandard {}).loadFile files (.ofText arguments.builtins) = .ok loaded ∧
      loaded.loader.errors ≠ []

theorem exists_builtins_eq
    (hbuiltins : arguments.builtins ≠ "" →
      files.isDirectory (.ofText arguments.builtins) = false) :
    ∃ loaded, builtins arguments files = .ok loaded ∧ loaded.loader.Reachable ∧
      (loaded.loader.errors ≠ [] ↔ FailsToLoad arguments files) := by
  have hstandard : (Loader.loadStandard {}).Reachable := .standard .empty
  by_cases hgiven : arguments.builtins = ""
  · refine ⟨⟨Loader.loadStandard {}, 0, []⟩, ?_, hstandard, ?_⟩
    · simp only [builtins, if_pos hgiven]
      rfl
    · simp [FailsToLoad, hgiven, Loader.loadStandard]
  · have hload : ∃ loaded,
        (Loader.loadStandard {}).loadFile files (.ofText arguments.builtins) = .ok loaded := by
      match hlook : files.look (.ofText arguments.builtins) with
      | none => exact ⟨_, by simp only [Loader.loadFile, FileTree.readText, hlook]; rfl⟩
      | some .directory =>
        have hnot := hbuiltins hgiven
        simp [FileTree.isDirectory, hlook] at hnot
      | some (.file bytes) =>
        exact ⟨_, by simp only [Loader.loadFile, FileTree.readText, hlook]; rfl⟩
    obtain ⟨loaded, hload⟩ := hload
    refine ⟨loaded, ?_, hstandard.file hload, ?_⟩
    · simp only [builtins, if_neg hgiven]
      exact hload
    · constructor
      · exact fun herrors => ⟨hgiven, loaded, hload, herrors⟩
      · rintro ⟨-, other, hother, herrors⟩
        cases hload.symm.trans hother
        exact herrors

theorem withBuiltins_of_errors (hload : builtins arguments files = .ok loaded)
    (herrors : loaded.loader.errors ≠ []) (command : Catalogue → Except Fault Transcript) :
    withBuiltins arguments files command =
      .ok ⟨2, [], logged arguments loaded.log ++
        loaded.loader.errors.map fun error => "❌ " ++ error.message⟩ := by
  simp only [withBuiltins, hload, bind, Except.bind]
  rfl

theorem withBuiltins_of_nil (hload : builtins arguments files = .ok loaded)
    (herrors : loaded.loader.errors = []) {command : Catalogue → Except Fault Transcript}
    {transcript : Transcript} (hcommand : command loaded.loader.catalogue = .ok transcript) :
    withBuiltins arguments files command =
      .ok (transcript.after [] (logged arguments loaded.log)) := by
  simp only [withBuiltins, hload, herrors, hcommand, bind, Except.bind]
  rfl

/-! ## Checks -/

/-- The file is not there, or it has errors. -/
def IsFaulty (catalogue : Catalogue) (files : FileTree) (file : String) : Prop :=
  files.look (.ofText file) = none ∨
    ∃ outcome : Outcome, outcome.IsOf catalogue files (.ofText file) ∧
      outcome.bag.hasErrors = true

/-- The status of a check of files. -/
inductive ChecksTo (catalogue : Catalogue) (files : FileTree) (listed : List String) : Nat → Prop
    where
  | faulty : (∃ file ∈ listed, IsFaulty catalogue files file) → ChecksTo catalogue files listed 1
  | faultless : (∀ file ∈ listed, ¬ IsFaulty catalogue files file) →
    ChecksTo catalogue files listed 0

namespace ChecksTo
variable {catalogue : Catalogue} {listed : List String} {status other : Nat}

theorem ne_two (h : ChecksTo catalogue files listed status) : status ≠ 2 := by
  cases h <;> decide

theorem eq_one_iff (h : ChecksTo catalogue files listed status) :
    status = 1 ↔ ∃ file ∈ listed, IsFaulty catalogue files file := by
  cases h with
  | faulty h => simpa using h
  | faultless h => simpa using h

theorem eq_zero_iff (h : ChecksTo catalogue files listed status) :
    status = 0 ↔ ∀ file ∈ listed, ¬ IsFaulty catalogue files file := by
  cases h with
  | faulty h => simpa using h
  | faultless h => simpa using h

theorem unique (h : ChecksTo catalogue files listed status)
    (hother : ChecksTo catalogue files listed other) : status = other := by
  cases h with
  | faulty h => exact (hother.eq_one_iff.mpr h).symm
  | faultless h => exact (hother.eq_zero_iff.mpr h).symm

theorem perm {listed' : List String} (h : ChecksTo catalogue files listed status)
    (hperm : listed.Perm listed') : ChecksTo catalogue files listed' status := by
  cases h with
  | faulty h =>
    obtain ⟨file, hfile, hfaulty⟩ := h
    exact .faulty ⟨file, hperm.mem_iff.mp hfile, hfaulty⟩
  | faultless h => exact .faultless fun file hfile => h file (hperm.mem_iff.mpr hfile)

/-- One more file is faulty, or leaves the status as it is. -/
theorem cons (h : ChecksTo catalogue files listed status) (file : String) {b : Bool}
    (hb : b = true ↔ IsFaulty catalogue files file) :
    ChecksTo catalogue files (file :: listed) (if b then 1 else status) := by
  cases b with
  | true => exact .faulty ⟨file, List.mem_cons_self, hb.mp rfl⟩
  | false =>
    cases h with
    | faulty h =>
      obtain ⟨other, hother, hfaulty⟩ := h
      exact .faulty ⟨other, List.mem_cons_of_mem _ hother, hfaulty⟩
    | faultless h =>
      refine .faultless (List.forall_mem_cons.mpr ⟨fun hfaulty => ?_, h⟩)
      cases hb.mpr hfaulty

end ChecksTo

theorem exists_ofFile_eq {loader : Loader} (hloader : loader.Reachable) {file : String}
    (hfile : files.isDirectory (.ofText file) = false) :
    ∃ outcome, Outcome.ofFile loader.catalogue files (.ofText file) = .ok outcome ∧
      (outcome.bag.hasErrors = true ↔ IsFaulty loader.catalogue files file) := by
  match hlook : files.look (.ofText file) with
  | none => exact ⟨_, Outcome.ofFile_of_none hlook, by simp [IsFaulty, hlook]; rfl⟩
  | some .directory => simp [FileTree.isDirectory, hlook] at hfile
  | some (.file bytes) =>
    obtain ⟨outcome, houtcome, his⟩ := Outcome.exists_ofFile_eq hloader hlook
    refine ⟨outcome, houtcome, ?_⟩
    constructor
    · exact fun herrors => .inr ⟨outcome, his, herrors⟩
    · rintro (hmissing | ⟨other, hother, herrors⟩)
      · rw [hlook] at hmissing
        cases hmissing
      · cases houtcome.symm.trans hother.ofFile_eq
        exact herrors

theorem exists_checkFiles_eq {loader : Loader} (hloader : loader.Reachable)
    (arguments : Arguments) {listed : List String}
    (hlisted : ∀ file ∈ listed, files.isDirectory (.ofText file) = false) :
    ∃ transcript, checkFiles arguments files loader.catalogue listed = .ok transcript ∧
      ChecksTo loader.catalogue files listed transcript.status := by
  induction listed with
  | nil => exact ⟨{}, rfl, .faultless (by simp)⟩
  | cons file rest ih =>
    rw [List.forall_mem_cons] at hlisted
    obtain ⟨outcome, houtcome, hfaulty⟩ := exists_ofFile_eq hloader hlisted.1
    obtain ⟨others, hothers, hstatus⟩ := ih hlisted.2
    simp only [checkFiles, houtcome, hothers, bind, Except.bind]
    exact ⟨_, rfl, hstatus.cons file hfaulty⟩

/-! ## Verifications -/

/-- The program fares as expected: it is a file, and its check has diagnostics just where some are
expected. -/
def Suits (expectsFindings : Bool) (catalogue : Catalogue) (files : FileTree) (path : Path) :
    Prop :=
  ∃ outcome : Outcome, outcome.IsOf catalogue files path ∧
    outcome.bag.isEmpty = !expectsFindings

theorem passes_iff_suits {loader : Loader} (hloader : loader.Reachable) {group : ProgramGroup}
    {path : Path} (hlook : (files.look path).isSome = true) :
    Passes files loader.catalogue group path ↔
      Suits group.expectsFindings loader.catalogue files path := by
  rw [Passes, standing_eq_passed, Suits]
  exact exists_congr fun outcome => and_congr_left' (Outcome.ofFile_eq_ok_iff hloader hlook)

/-- What holds of the groups holds of the directories that are given. -/
theorem forall_mem_groups {p : Bool → String → Prop} :
    (∀ group ∈ groups arguments, p group.expectsFindings group.directory) ↔
      (arguments.clean ≠ "" → p false arguments.clean) ∧
        (arguments.errors ≠ "" → p true arguments.errors) := by
  simp [groups, List.mem_filter, bne_iff_ne]

theorem groups_eq_nil : groups arguments = [] ↔ arguments.clean = "" ∧ arguments.errors = "" := by
  simp [groups, List.filter_eq_nil_iff]

theorem sum_map_groups (f : String → Nat) :
    ((groups arguments).map fun group => f group.directory).sum =
      (if arguments.clean = "" then 0 else f arguments.clean) +
        if arguments.errors = "" then 0 else f arguments.errors := by
  by_cases hclean : arguments.clean = "" <;> by_cases herrors : arguments.errors = "" <;>
    simp [groups, hclean, herrors]

/-- These are, each once, the sources below the directory, if one is given. -/
def ListsSources (files : FileTree) (directory : String) (found : List DiskPlace) : Prop :=
  found.Nodup ∧
    ∀ names, names ∈ found ↔ directory ≠ "" ∧ files.IsSourceBelow (.ofText directory) names

theorem exists_listsSources {directory : String}
    (hdirectory : directory ≠ "" → files.isDirectory (.ofText directory) = true) :
    ∃ found, ListsSources files directory found ∧
      found.length = if directory = "" then 0 else (files.sources (.ofText directory)).length := by
  by_cases hgiven : directory = ""
  · exact ⟨[], ⟨List.nodup_nil, by simp [hgiven]⟩, by simp [hgiven]⟩
  · obtain ⟨found, hsources, hnodup, hmem⟩ := FileTree.exists_sources_eq (hdirectory hgiven)
    refine ⟨found, ⟨hnodup, fun names => ?_⟩, by simp [hgiven, hsources]⟩
    rw [hmem]
    exact ⟨fun h => ⟨hgiven, h⟩, And.right⟩

theorem forall_sources_passes {loader : Loader} (hloader : loader.Reachable)
    (hsound : files.IsSound) {group : ProgramGroup}
    (hdirectory : files.isDirectory (.ofText group.directory) = true) :
    (∀ path ∈ files.sources (.ofText group.directory), Passes files loader.catalogue group path) ↔
      ∀ names, files.IsSourceBelow (.ofText group.directory) names →
        Suits group.expectsFindings loader.catalogue files
          ((Path.ofText group.directory).below names) := by
  obtain ⟨found, hsources, -, hmem⟩ := FileTree.exists_sources_eq hdirectory
  rw [hsources, List.forall_mem_map]
  refine forall_congr' fun names => ?_
  rw [hmem]
  exact forall_congr' fun hbelow => passes_iff_suits hloader (hbelow.isSome_look hsound)

/-! ## Commands -/

/-- Nothing is looked at: further routines could not be loaded, or nothing is given to verify. -/
def IsRefused (arguments : Arguments) (files : FileTree) : Prop :=
  FailsToLoad arguments files ∨
    arguments.command = .verify ∧ arguments.clean = "" ∧ arguments.errors = ""

/-- A directory is given that is not there. -/
def LacksDirectory (arguments : Arguments) (files : FileTree) : Prop :=
  arguments.command = .verify ∧
    (arguments.clean ≠ "" ∧ files.isDirectory (.ofText arguments.clean) = false ∨
      arguments.errors ≠ "" ∧ files.isDirectory (.ofText arguments.errors) = false)

theorem errors_eq_nil (hfails : loaded.loader.errors ≠ [] ↔ FailsToLoad arguments files)
    (hrefused : ¬ IsRefused arguments files) : loaded.loader.errors = [] := by
  by_contra herrors
  exact hrefused (.inl (hfails.mp herrors))

theorem lacksDirectory_iff (hcommand : arguments.command = .verify) :
    LacksDirectory arguments files ↔
      ∃ group ∈ groups arguments, files.isDirectory (.ofText group.directory) = false := by
  have hall := @forall_mem_groups arguments
    fun _ directory => files.isDirectory (.ofText directory) = true
  rw [← not_iff_not]
  simp only [LacksDirectory, hcommand, true_and, not_or, not_and, not_exists, Bool.not_eq_false]
  exact hall.symm

theorem builtins_congr {other : FileTree} (h : other.look (.ofText arguments.builtins) =
    files.look (.ofText arguments.builtins)) :
    builtins arguments other = builtins arguments files := by
  simp only [builtins, Loader.loadFile, FileTree.readText, h]

/-- What is refused is refused in every tree in which the further routines are the same. -/
theorem exists_perform_eq_of_refused
    (hfails : loaded.loader.errors ≠ [] ↔ FailsToLoad arguments files)
    (hrefused : IsRefused arguments files) :
    ∃ transcript : Transcript, transcript.status = 2 ∧ transcript.output = [] ∧
      ∀ other, builtins arguments other = .ok loaded →
        perform arguments other = .ok transcript := by
  by_cases herrors : loaded.loader.errors = []
  · obtain ⟨hcommand, hclean, herroneous⟩ :=
      hrefused.resolve_left fun hfail => hfails.mpr hfail herrors
    have hgroups := groups_eq_nil.mpr ⟨hclean, herroneous⟩
    let report : Transcript :=
      ⟨2, [], ["❌ nothing to verify: pass --clean DIR and/or --errors DIR"]⟩
    refine ⟨report.after [] (logged arguments loaded.log), rfl, rfl, fun other hother => ?_⟩
    simp only [perform, hcommand, verify, hgroups]
    refine withBuiltins_of_nil hother herrors ?_
    rfl
  · refine ⟨⟨2, [], logged arguments loaded.log ++
      loaded.loader.errors.map fun error => "❌ " ++ error.message⟩, rfl, rfl, ?_⟩
    intro other hother
    unfold perform
    split
    · exact withBuiltins_of_errors hother herrors _
    · exact withBuiltins_of_errors hother herrors _

theorem exists_perform_check (hcommand : arguments.command = .check)
    (hload : builtins arguments files = .ok loaded) (hloader : loaded.loader.Reachable)
    (herrors : loaded.loader.errors = [])
    (hlisted : ∀ file ∈ arguments.files, files.isDirectory (.ofText file) = false) :
    ∃ transcript, perform arguments files = .ok transcript ∧
      ChecksTo loaded.loader.catalogue files arguments.files transcript.status := by
  obtain ⟨transcript, htranscript, hstatus⟩ := exists_checkFiles_eq hloader arguments hlisted
  refine ⟨transcript.after [] (logged arguments loaded.log), ?_, hstatus⟩
  simp only [perform, hcommand, check]
  refine withBuiltins_of_nil hload herrors ?_
  exact htranscript

theorem perform_verify_eq (hcommand : arguments.command = .verify)
    (hload : builtins arguments files = .ok loaded) (herrors : loaded.loader.errors = [])
    (hgroups : groups arguments ≠ []) :
    perform arguments files =
      .ok ((verifyGroups arguments files loaded.loader.catalogue {} (groups arguments)).after []
        (logged arguments loaded.log)) := by
  simp only [perform, hcommand, verify]
  exact withBuiltins_of_nil hload herrors rfl

/-- The tally of a verification: of all sources below the directories, without faults if all of them
fare as expected. -/
theorem exists_tally {loader : Loader} (hloader : loader.Reachable) (hsound : files.IsSound)
    (hdirectories : ∀ group ∈ groups arguments,
      files.isDirectory (.ofText group.directory) = true) :
    let transcript := verifyGroups arguments files loader.catalogue {} (groups arguments)
    ∃ (tally : Tally) (clean errors : List DiskPlace),
      transcript.output.getLast? = some tally.render ∧ transcript.status = tally.status ∧
        ListsSources files arguments.clean clean ∧ ListsSources files arguments.errors errors ∧
        tally.total = clean.length + errors.length ∧
        (tally.faults = 0 ↔
          (arguments.clean ≠ "" → ∀ names, files.IsSourceBelow (.ofText arguments.clean) names →
            Suits false loader.catalogue files ((Path.ofText arguments.clean).below names)) ∧
          (arguments.errors ≠ "" → ∀ names, files.IsSourceBelow (.ofText arguments.errors) names →
            Suits true loader.catalogue files ((Path.ofText arguments.errors).below names))) := by
  obtain ⟨tally, hlast, hstatus, htotal, hfaults⟩ := verifyGroups_of_directories arguments files
    loader.catalogue {} hdirectories
  obtain ⟨hclean, herroneous⟩ := (@forall_mem_groups arguments fun _ directory =>
    files.isDirectory (.ofText directory) = true).mp hdirectories
  obtain ⟨clean, hcleanList, hcleanLength⟩ := exists_listsSources hclean
  obtain ⟨errors, herrorsList, herrorsLength⟩ := exists_listsSources herroneous
  refine ⟨tally, clean, errors, hlast, hstatus, hcleanList, herrorsList, ?_, ?_⟩
  · rw [htotal, hcleanLength, herrorsLength,
      ← sum_map_groups fun directory => (files.sources (.ofText directory)).length]
    exact Nat.zero_add _
  · have hpasses := forall₂_congr fun group hgroup =>
      forall_sources_passes hloader hsound (hdirectories group hgroup)
    have hgroups := @forall_mem_groups arguments fun expectsFindings directory =>
      ∀ names, files.IsSourceBelow (.ofText directory) names →
        Suits expectsFindings loader.catalogue files ((Path.ofText directory).below names)
    rw [hfaults, ← hgroups, ← hpasses]
    exact ⟨And.right, fun h => ⟨rfl, h⟩⟩

/-- The transcript tells what became of a command. -/
structure TellsTruth (arguments : Arguments) (files : FileTree) (catalogue : Catalogue)
    (transcript : Transcript) : Prop where
  /-- Where nothing is looked at, nothing is reported, and other files make no difference. -/
  refused : IsRefused arguments files → transcript.status = 2 ∧ transcript.output = [] ∧
    ∀ other : FileTree, other.look (.ofText arguments.builtins) =
      files.look (.ofText arguments.builtins) → perform arguments other = .ok transcript
  two : transcript.status = 2 ↔ IsRefused arguments files ∨ LacksDirectory arguments files
  check : ¬ IsRefused arguments files → arguments.command = .check →
    (transcript.status = 1 ↔ ∃ file ∈ arguments.files, IsFaulty catalogue files file) ∧
      (transcript.status = 0 ↔ ∀ file ∈ arguments.files, ¬ IsFaulty catalogue files file)
  order : ¬ IsRefused arguments files → arguments.command = .check →
    ∀ listed : List String, listed.Perm arguments.files →
      ∃ other, perform { arguments with files := listed } files = .ok other ∧
        other.status = transcript.status
  verify : ¬ IsRefused arguments files → ¬ LacksDirectory arguments files →
    arguments.command = .verify → (transcript.status = 0 ∨ transcript.status = 1) ∧
      (transcript.status = 0 ↔
        (arguments.clean ≠ "" → ∀ names, files.IsSourceBelow (.ofText arguments.clean) names →
          Suits false catalogue files ((Path.ofText arguments.clean).below names)) ∧
        (arguments.errors ≠ "" → ∀ names, files.IsSourceBelow (.ofText arguments.errors) names →
          Suits true catalogue files ((Path.ofText arguments.errors).below names)))
  tally : ¬ IsRefused arguments files → ¬ LacksDirectory arguments files →
    arguments.command = .verify → ∃ (tally : Tally) (clean errors : List DiskPlace),
      transcript.output.getLast? = some tally.render ∧
        ListsSources files arguments.clean clean ∧ ListsSources files arguments.errors errors ∧
        tally.passed + tally.failed + tally.crashed = clean.length + errors.length

section
variable (hbuiltins : arguments.builtins ≠ "" →
    files.isDirectory (.ofText arguments.builtins) = false)
include hbuiltins

theorem exists_tellsTruth_of_refused (hrefused : IsRefused arguments files) :
    ∃ loaded transcript, builtins arguments files = .ok loaded ∧
      perform arguments files = .ok transcript ∧
        TellsTruth arguments files loaded.loader.catalogue transcript := by
  obtain ⟨loaded, hload, -, hfails⟩ := exists_builtins_eq hbuiltins
  obtain ⟨transcript, hstatus, houtput, hperform⟩ :=
    exists_perform_eq_of_refused hfails hrefused
  exact ⟨loaded, transcript, hload, hperform files hload,
    { refused := fun _ => ⟨hstatus, houtput, fun other hother =>
        hperform other ((builtins_congr hother).trans hload)⟩
      two := by simp [hstatus, hrefused]
      check := fun hnot => absurd hrefused hnot
      order := fun hnot => absurd hrefused hnot
      verify := fun hnot => absurd hrefused hnot
      tally := fun hnot => absurd hrefused hnot }⟩

theorem exists_tellsTruth_of_check (hcommand : arguments.command = .check)
    (hrefused : ¬ IsRefused arguments files)
    (hlisted : ∀ file ∈ arguments.files, files.isDirectory (.ofText file) = false) :
    ∃ loaded transcript, builtins arguments files = .ok loaded ∧
      perform arguments files = .ok transcript ∧
        TellsTruth arguments files loaded.loader.catalogue transcript := by
  obtain ⟨loaded, hload, hloader, hfails⟩ := exists_builtins_eq hbuiltins
  have herrors := errors_eq_nil hfails hrefused
  obtain ⟨transcript, hperform, hstatus⟩ :=
    exists_perform_check hcommand hload hloader herrors hlisted
  refine ⟨loaded, transcript, hload, hperform, ?_⟩
  have hverify : arguments.command ≠ .verify := by simp [hcommand]
  refine
    { refused := fun h => absurd h hrefused
      two := ?_
      check := fun _ _ => ?_
      order := fun _ _ listed hlist => ?_
      verify := fun _ _ h => absurd h hverify
      tally := fun _ _ h => absurd h hverify }
  · exact ⟨fun h => absurd h hstatus.ne_two,
      fun h => absurd (h.resolve_left hrefused).1 hverify⟩
  · exact ⟨hstatus.eq_one_iff, hstatus.eq_zero_iff⟩
  · obtain ⟨other, hother, hothers⟩ :=
      @exists_perform_check { arguments with files := listed } files loaded hcommand hload hloader
        herrors fun file hfile => hlisted file (hlist.mem_iff.mp hfile)
    exact ⟨other, hother, (hothers.perm hlist).unique hstatus⟩

theorem exists_tellsTruth_of_verify (hsound : files.IsSound)
    (hcommand : arguments.command = .verify) (hrefused : ¬ IsRefused arguments files) :
    ∃ loaded transcript, builtins arguments files = .ok loaded ∧
      perform arguments files = .ok transcript ∧
        TellsTruth arguments files loaded.loader.catalogue transcript := by
  obtain ⟨loaded, hload, hloader, hfails⟩ := exists_builtins_eq hbuiltins
  have herrors := errors_eq_nil hfails hrefused
  have hgroups : groups arguments ≠ [] := by
    intro hnil
    exact hrefused (.inr ⟨hcommand, groups_eq_nil.mp hnil⟩)
  have hcheck : arguments.command ≠ .check := by simp [hcommand]
  refine ⟨loaded, _, hload, perform_verify_eq hcommand hload herrors hgroups, ?_⟩
  by_cases hlacks : LacksDirectory arguments files
  · have hstatus := status_verifyGroups_of_missing arguments files loaded.loader.catalogue {}
      ((lacksDirectory_iff hcommand).mp hlacks)
    exact
      { refused := fun h => absurd h hrefused
        two := ⟨fun _ => .inr hlacks, fun _ => hstatus⟩
        check := fun _ h => absurd h hcheck
        order := fun _ h => absurd h hcheck
        verify := fun _ h => absurd hlacks h
        tally := fun _ h => absurd hlacks h }
  have hdirectories : ∀ group ∈ groups arguments,
      files.isDirectory (.ofText group.directory) = true := by
    simpa using (lacksDirectory_iff hcommand).not.mp hlacks
  obtain ⟨tally, clean, errors, hlast, hstatus, hclean, herroneous, htotal, hfaults⟩ :=
    exists_tally hloader hsound hdirectories
  exact
    { refused := fun h => absurd h hrefused
      two := by
        have htwo : tally.status ≠ 2 := by
          rcases tally.status_eq with h | h <;> simp [h]
        exact ⟨fun h => absurd (hstatus.symm.trans h) htwo,
          fun h => absurd h (not_or.mpr ⟨hrefused, hlacks⟩)⟩
      check := fun _ h => absurd h hcheck
      order := fun _ h => absurd h hcheck
      verify := fun _ _ _ => by
        rw [← hfaults, ← Tally.status_eq_zero, ← hstatus]
        exact ⟨hstatus ▸ tally.status_eq, Iff.rfl⟩
      tally := fun _ _ _ => ⟨tally, clean, errors, hlast, hclean, herroneous, htotal⟩ }

end

/-- **The status of a command tells the truth**, whatever the files are, if none of those that are
to be read is a directory. -/
theorem run_tellsTruth (hsound : files.IsSound) {line : List String}
    (hread : Arguments.read line = .ok arguments)
    (hbuiltins : arguments.builtins ≠ "" →
      files.isDirectory (.ofText arguments.builtins) = false)
    (hlisted : ∀ file ∈ arguments.files, files.isDirectory (.ofText file) = false) :
    ∃ loaded transcript, builtins arguments files = .ok loaded ∧
      run files line = .ok transcript ∧
        TellsTruth arguments files loaded.loader.catalogue transcript := by
  have hrun : run files line = perform arguments files := by
    simp only [run, hread, bind, Except.bind]
  rw [hrun]
  by_cases hrefused : IsRefused arguments files
  · exact exists_tellsTruth_of_refused hbuiltins hrefused
  cases hcommand : arguments.command with
  | check => exact exists_tellsTruth_of_check hbuiltins hcommand hrefused hlisted
  | verify => exact exists_tellsTruth_of_verify hbuiltins hsound hcommand hrefused

theorem run_tellsTruth_two_directories :
    let files : FileTree := ⟨["run"],
      [(["run", "good", "x.pas"], .file "begin end.".toUTF8.toList),
        (["run", "bad", "y.pas"], .file []), (["run", "bad", "z.pas"], .directory)]⟩
    let arguments : Arguments := { command := .verify, clean := "good", errors := "./bad" }
    ∃ loaded transcript, builtins arguments files = .ok loaded ∧
      run files ["verify", "--errors=./bad", "--clean", "good"] = .ok transcript ∧
        TellsTruth arguments files loaded.loader.catalogue transcript :=
  run_tellsTruth (FileTree.isSound_of_entries (by decide) (by decide)) (by decide) (by decide)
    (by decide)

/-- A directory that is given by an empty path is not looked at, although the path leads to one, and
a command can stop with status two for a directory that is not there before it looks at anything. -/
theorem status_of_empty_directory :
    let files : FileTree := ⟨["run"], [(["run", "bad", "x.pas"], .file [])]⟩
    let line := ["verify", "--clean", "", "--errors", "bad"]
    let names := ["bad", "x.pas"]
    Arguments.read line = .ok { command := .verify, errors := "bad" } ∧
      files.isDirectory (.ofText "") = true ∧ files.IsSourceBelow (.ofText "") names ∧
      ¬ Suits false (Loader.loadStandard {}).catalogue files ((Path.ofText "").below names) ∧
      run files line = .ok ⟨0, ["--- erroneous programs (expected: diagnostics): bad",
        "[OK] x.pas", "", "1 file(s): 1 passed, 0 failed, 0 crashed"], []⟩ ∧
      run files ["verify", "--clean", ""] =
        .ok ⟨2, [], ["❌ nothing to verify: pass --clean DIR and/or --errors DIR"]⟩ ∧
      run files ["verify", "--clean", "nowhere"] =
        .ok ⟨2, [], ["❌ directory not found: nowhere"]⟩ := by
  refine ⟨by decide, by decide, ⟨by decide, by decide, ["run"], by decide, by decide⟩, ?_,
    by decide +kernel, by decide +kernel, by decide +kernel⟩
  rintro ⟨outcome, his, hempty⟩
  have hfound : (Outcome.ofFile (Loader.loadStandard {}).catalogue
      ⟨["run"], [(["run", "bad", "x.pas"], .file [])]⟩
      ((Path.ofText "").below ["bad", "x.pas"])).toOption.map (·.bag.isEmpty) = some false := by
    decide +kernel
  rw [his.ofFile_eq] at hfound
  cases hempty.symm.trans (Option.some.inj hfound)

end Command
end PascalCheck
