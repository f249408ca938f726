import PascalCheck.Proofs.Builtin.Orderly

/-! # Every declaring line is accounted for

A line of a file that declares something is counted or reported, once and in its place: the routines
of the counted lines are put one after the other into the tables that were there, the errors of the
others come behind those that were there, each with the number of its line. -/
namespace PascalCheck

/-- The message begins with the path of the file and the number of the line. -/
def LoadError.IsAt (place : LinePlace) (error : LoadError) : Prop :=
  ∃ text, error.message = place.path ++ ":" ++ toString place.line ++ ": " ++ text

namespace Loader
open Text
variable {loader : Loader}

theorem Refuses.isAt {place : LinePlace} {line : List Char} {error : LoadError}
    (h : Refuses place line error) : error.IsAt place := by
  unfold LoadError.IsAt LoadError.message
  cases h with
  | unrecognized =>
    refine ⟨"unrecognized declaration", ?_⟩
    simp [← String.toList_inj, LinePlace.render, toString]
  | @missingResult d =>
    refine ⟨s!"function '{d.name}' has no return type", ?_⟩
    simp [← String.toList_inj, LinePlace.render, toString]
  | @unknownResult d result =>
    refine ⟨s!"unknown return type '{lower result}' for function '{d.name}'", ?_⟩
    simp [← String.toList_inj, LinePlace.render, toString]

theorem Sorts.isAt {path : String} {lines : List (List Char × Nat)}
    {routines : List BuiltinRoutine} {errors : List LoadError}
    (h : Sorts path lines routines errors) :
    ∀ error ∈ errors, ∃ line ∈ lines, error.IsAt ⟨path, line.2⟩ := by
  induction h with
  | nil => simp
  | accepted _ _ ih =>
    intro error herror
    obtain ⟨line, hline, hat⟩ := ih error herror
    exact ⟨line, List.mem_cons_of_mem _ hline, hat⟩
  | refused hrefuses _ ih =>
    refine List.forall_mem_cons.mpr ⟨⟨_, List.mem_cons_self, hrefuses.isAt⟩, fun error herror => ?_⟩
    obtain ⟨line, hline, hat⟩ := ih error herror
    exact ⟨line, List.mem_cons_of_mem _ hline, hat⟩

/-- **Every declaring line is accounted for once**: it is counted and its routine is stored, or it
is reported. -/
theorem loadFile_accounts (h : loader.Reachable) (files : FileTree) (path : Path)
    {bytes : List UInt8} (hfile : files.look path = some (.file bytes)) :
    ∃ loaded routines errors, loader.loadFile files path = .ok loaded ∧
      Sorts path.render (declaringLines bytes) routines errors ∧
      loaded.count = routines.length ∧
      loaded.count + errors.length = (declaringLines bytes).length ∧
      Catalogue.StoresAll routines loader.catalogue loaded.loader.catalogue ∧
      loaded.loader.errors = loader.errors ++ errors ∧
      (∀ routine ∈ routines, routine.IsTyped) ∧
      (∀ error ∈ errors, ∃ line ∈ declaringLines bytes, error.IsAt ⟨path.render, line.2⟩) ∧
      loader.catalogue.IsOrderly ∧ loaded.loader.catalogue.IsOrderly := by
  obtain ⟨loaded, routines, errors, hload, hsorts, hloaded, hcount⟩ :=
    exists_sorts_loadFile loader hfile
  obtain ⟨hstores, horderly⟩ := Catalogue.storesAll_storeAll h.isOrderly hsorts.isTyped
  refine ⟨loaded, routines, errors, hload, hsorts, hcount, ?_, ?_, ?_, hsorts.isTyped, hsorts.isAt,
    h.isOrderly, ?_⟩
  · rw [hcount, hsorts.length]
  · rwa [hloaded]
  · rw [hloaded]
  · rwa [hloaded]

/-- A comment, a procedure, two functions that are not loaded and a line that declares nothing,
after the standard routines. -/
theorem loadFile_accounts_standard :
    ∃ loaded errors, (loadStandard {}).loadFile
        ⟨[], [(["more"], .file ("// more\nprocedure Inc(2);\nfunction f(1);\n\n" ++
          "function g(1): complex;\n?").toUTF8.data.toList)]⟩ ⟨"", ["more"]⟩ = .ok loaded ∧
      loaded.count + errors.length = 4 ∧ loaded.loader.errors = errors ∧
      loaded.loader.catalogue.IsOrderly := by
  obtain ⟨loaded, _, errors, hload, -, -, hcount, -, herrors, -, -, -, horderly⟩ :=
    loadFile_accounts (.standard .empty) ⟨[], [(["more"], _)]⟩ ⟨"", ["more"]⟩ rfl
  refine ⟨loaded, errors, hload, hcount.trans ?_, herrors, horderly⟩
  decide +kernel

end Loader
end PascalCheck
