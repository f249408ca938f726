import PascalCheck.Check.Outcome
import PascalCheck.Proofs.Builtin.DeclarationSyntax
import PascalCheck.Proofs.Builtin.Tables

/-! # What becomes of the lines of a file of declarations

Each line that declares something either has a routine (`Accepts`), which is put into the table of
its kind, or an error (`Refuses`), which is recorded with the number of the line.  Neither depends
on what has been loaded before, so that the load of a file is the load of the routines of its lines,
with the errors of its lines beside it (`exists_sorts_loadFile`). -/
namespace PascalCheck

namespace ResultRule

/-- The rules that a declaration can name. -/
def all : List ResultRule :=
  .sameAsFirst :: Ty.named.map .fixed

theorem mem_all_of_ofName? {name : String} {rule : ResultRule} (h : ofName? name = some rule) :
    rule ∈ all := by
  unfold ofName? at h
  split at h
  · cases h
    exact List.mem_cons_self
  · obtain ⟨ty, hty, rfl⟩ := Option.map_eq_some_iff.mp h
    exact List.mem_cons_of_mem _ (List.mem_map_of_mem (List.mem_of_find?_eq_some hty))

end ResultRule

/-! ## Lines -/

namespace Loader
open Text

/-- The line has no characters or is a comment. -/
theorem isIdle_iff {line : List Char} :
    isIdle line = true ↔ line = [] ∨ "//".toList <+: line := by
  constructor
  · intro h
    unfold isIdle at h
    split at h
    · exact .inl rfl
    · rename_i rest
      exact .inr ⟨rest, rfl⟩
    · cases h
  · rintro (rfl | ⟨rest, rfl⟩)
    · rfl
    · rfl

/-- The lines that declare something, without the white space at their ends and with their numbers,
which count all lines: those that are not empty and do not begin with two slashes. -/
def declaring (lines : List (List Char)) (number : Nat) : List (List Char × Nat) :=
  ((lines.map trim).zipIdx number).filter fun line => line.1 ≠ [] ∧ ¬ "//".toList <+: line.1

theorem declaring_cons (line : List Char) (rest : List (List Char)) (number : Nat) :
    declaring (line :: rest) number =
      (if isIdle (trim line) then [] else [(trim line, number)]) ++
        declaring rest (number + 1) := by
  rw [declaring, List.map_cons, List.zipIdx_cons]
  by_cases h : isIdle (trim line) = true
  · rw [List.filter_cons_of_neg (by simpa [← not_or] using isIdle_iff.mp h), if_pos h]
    rfl
  · rw [List.filter_cons_of_pos (by simpa [← not_or] using mt isIdle_iff.mpr h), if_neg h]
    rfl

/-- The declaring lines of a file.  Its text is read as UTF-8, and every kind of line break ends a
line. -/
def declaringLines (bytes : List UInt8) : List (List Char × Nat) :=
  declaring (splitLines (foldNewlines (Utf8.decode bytes))) 1

/-- What the line declares is loaded: a function with its result, or a procedure, whatever stands
for a result there. -/
inductive Accepts (line : List Char) : BuiltinRoutine → Prop where
  | function {d : BuiltinDeclaration} {result : String} {rule : ResultRule} : d.IsWritten line →
    d.isFunction = true → d.result = some result → ResultRule.ofName? (lower result) = some rule →
    Accepts line ⟨lower d.name, d.minimum, d.maximum, some rule⟩
  | procedure {d : BuiltinDeclaration} : d.IsWritten line → d.isFunction = false →
    Accepts line ⟨lower d.name, d.minimum, d.maximum, none⟩

/-- The line is not loaded: it is no declaration, or that of a function without a result or with one
that is no type. -/
inductive Refuses (place : LinePlace) (line : List Char) : LoadError → Prop where
  | unrecognized : (∀ d : BuiltinDeclaration, ¬ d.IsWritten line) →
    Refuses place line (.unrecognized place)
  | missingResult {d : BuiltinDeclaration} : d.IsWritten line → d.isFunction = true →
    d.result = none → Refuses place line (.missingResult place d.name)
  | unknownResult {d : BuiltinDeclaration} {result : String} : d.IsWritten line →
    d.isFunction = true → d.result = some result → ResultRule.ofName? (lower result) = none →
    Refuses place line (.unknownResult (some place) d.name (lower result))

/-- Each line has a routine or an error, and those are the routines and the errors in their order.
-/
inductive Sorts (path : String) :
    List (List Char × Nat) → List BuiltinRoutine → List LoadError → Prop where
  | nil : Sorts path [] [] []
  | accepted {line : List Char} {number : Nat} {lines : List (List Char × Nat)}
      {routine : BuiltinRoutine} {routines : List BuiltinRoutine} {errors : List LoadError} :
    Accepts line routine → Sorts path lines routines errors →
    Sorts path ((line, number) :: lines) (routine :: routines) errors
  | refused {line : List Char} {number : Nat} {lines : List (List Char × Nat)}
      {error : LoadError} {routines : List BuiltinRoutine} {errors : List LoadError} :
    Refuses ⟨path, number⟩ line error → Sorts path lines routines errors →
    Sorts path ((line, number) :: lines) routines (error :: errors)

theorem Accepts.unique {line : List Char} {routine other : BuiltinRoutine}
    (h : Accepts line routine) (hother : Accepts line other) : routine = other := by
  rcases h with ⟨hd, hkind, hresult, hrule⟩ | ⟨hd, hkind⟩
  · rcases hother with ⟨hd', hkind', hresult', hrule'⟩ | ⟨hd', hkind'⟩
    · cases hd.unique hd'
      cases hresult.symm.trans hresult'
      cases hrule.symm.trans hrule'
      rfl
    · cases hd.unique hd'
      cases hkind.symm.trans hkind'
  · rcases hother with ⟨hd', hkind', hresult', hrule'⟩ | ⟨hd', hkind'⟩
    · cases hd.unique hd'
      cases hkind.symm.trans hkind'
    · cases hd.unique hd'
      rfl

theorem Accepts.not_refuses {place : LinePlace} {line : List Char} {routine : BuiltinRoutine}
    {error : LoadError} (h : Accepts line routine) : ¬ Refuses place line error := by
  intro hrefuses
  rcases h with ⟨hd, hkind, hresult, hrule⟩ | ⟨hd, hkind⟩
  · rcases hrefuses with hno | ⟨hd', -, hresult'⟩ | ⟨hd', -, hresult', hrule'⟩
    · exact hno _ hd
    · cases hd.unique hd'
      cases hresult.symm.trans hresult'
    · cases hd.unique hd'
      cases hresult.symm.trans hresult'
      cases hrule.symm.trans hrule'
  · rcases hrefuses with hno | ⟨hd', hkind', -⟩ | ⟨hd', hkind', -, -⟩
    · exact hno _ hd
    · cases hd.unique hd'
      cases hkind.symm.trans hkind'
    · cases hd.unique hd'
      cases hkind.symm.trans hkind'

/-- Where every line has a routine, no line has anything else. -/
theorem Sorts.eq_of_forall₂_accepts {path : String} {lines : List (List Char × Nat)}
    {routines accepted : List BuiltinRoutine} {errors : List LoadError}
    (h : Sorts path lines routines errors)
    (haccepted : List.Forall₂ Accepts (lines.map Prod.fst) accepted) :
    routines = accepted ∧ errors = [] := by
  induction h generalizing accepted with
  | nil =>
    cases haccepted
    exact ⟨rfl, rfl⟩
  | accepted haccepts _ ih =>
    rw [List.map_cons] at haccepted
    rcases haccepted with _ | ⟨hfirst, hrest⟩
    obtain ⟨rfl, rfl⟩ := ih hrest
    exact ⟨congrArg (· :: _) (haccepts.unique hfirst), rfl⟩
  | refused hrefuses _ _ =>
    rw [List.map_cons] at haccepted
    rcases haccepted with _ | ⟨hfirst, -⟩
    exact absurd hrefuses hfirst.not_refuses

theorem Sorts.length {path : String} {lines : List (List Char × Nat)}
    {routines : List BuiltinRoutine} {errors : List LoadError}
    (h : Sorts path lines routines errors) : routines.length + errors.length = lines.length := by
  induction h with
  | nil => rfl
  | accepted _ _ ih => simp only [List.length_cons]; omega
  | refused _ _ ih => simp only [List.length_cons]; omega

end Loader

/-! ## Tables -/

namespace Catalogue

/-- The catalogue with one more routine in the table of its kind. -/
def store (catalogue : Catalogue) (routine : BuiltinRoutine) : Catalogue :=
  if routine.isFunction then { catalogue with functions := routine.insert catalogue.functions }
  else { catalogue with procedures := routine.insert catalogue.procedures }

section
variable (catalogue : Catalogue) (routines : List BuiltinRoutine)

theorem functions_storeAll : (routines.foldl store catalogue).functions =
    (routines.filter (·.isFunction)).foldl (fun all routine => routine.insert all)
      catalogue.functions := by
  induction routines generalizing catalogue with
  | nil => rfl
  | cons routine rest ih =>
    by_cases h : routine.isFunction = true <;> simp [ih, store, h]

theorem procedures_storeAll : (routines.foldl store catalogue).procedures =
    (routines.filter (!·.isFunction)).foldl (fun all routine => routine.insert all)
      catalogue.procedures := by
  induction routines generalizing catalogue with
  | nil => rfl
  | cons routine rest ih =>
    by_cases h : routine.isFunction = true <;> simp [ih, store, h]

end
end Catalogue

/-! ## Loads -/

namespace Loader
open Text
variable {loader next : Loader} {place : LinePlace} {line : List Char}

/-- The step of one line. -/
theorem addDeclaration_cases (loader : Loader) (place : LinePlace) (line : List Char) :
    (∃ routine, Accepts line routine ∧ loader.addDeclaration place line =
      .ok { loader with catalogue := loader.catalogue.store routine }) ∨
    ∃ error, Refuses place line error ∧ loader.addDeclaration place line = .error error := by
  unfold addDeclaration
  split
  · rename_i hread
    refine .inr ⟨_, .unrecognized fun d hd => ?_, rfl⟩
    rw [hd.read?] at hread
    cases hread
  · rename_i d hread
    have hd := BuiltinDeclaration.read?_eq_some_iff.mp hread
    split
    · rename_i hfunction
      split
      · rename_i hresult
        exact .inr ⟨_, .missingResult hd hfunction hresult, rfl⟩
      · rename_i result hresult
        unfold addFunction
        dsimp only
        split
        · rename_i rule hrule
          exact .inl ⟨_, .function hd hfunction hresult hrule, rfl⟩
        · rename_i hrule
          exact .inr ⟨_, .unknownResult hd hfunction hresult hrule, rfl⟩
    · rename_i hprocedure
      exact .inl ⟨_, .procedure hd (Bool.eq_false_iff.mpr hprocedure), rfl⟩

/-- The load of lines, of which the first has the given number. -/
theorem exists_sorts_loadLines (loader : Loader) (path : String) (number : Nat)
    (lines : List (List Char)) : ∃ routines errors,
      Sorts path (declaring lines number) routines errors ∧
      loader.loadLines path number lines =
        (⟨routines.foldl Catalogue.store loader.catalogue, loader.errors ++ errors⟩,
          routines.length) := by
  induction lines generalizing loader number with
  | nil => exact ⟨[], [], .nil, by simp [loadLines]⟩
  | cons line rest ih =>
    rw [declaring_cons, loadLines]
    by_cases hidle : isIdle (trim line) = true
    · simp only [if_pos hidle, List.nil_append]
      exact ih loader (number + 1)
    · simp only [if_neg hidle, List.singleton_append]
      rcases addDeclaration_cases loader ⟨path, number⟩ (trim line) with
        ⟨routine, haccepts, hadd⟩ | ⟨error, hrefuses, hadd⟩
      · obtain ⟨routines, errors, hsorts, hload⟩ :=
          ih { loader with catalogue := loader.catalogue.store routine } (number + 1)
        refine ⟨routine :: routines, errors, .accepted haccepts hsorts, ?_⟩
        simp only [hadd, hload, List.foldl_cons, List.length_cons]
      · obtain ⟨routines, errors, hsorts, hload⟩ := ih (loader.reject error) (number + 1)
        refine ⟨routines, error :: errors, .refused hrefuses hsorts, ?_⟩
        simp only [hadd]
        rw [hload]
        simp [reject]

/-- The load of a file. -/
theorem exists_sorts_loadFile (loader : Loader) {files : FileTree} {path : Path}
    {bytes : List UInt8} (hfile : files.look path = some (.file bytes)) :
    ∃ loaded routines errors, loader.loadFile files path = .ok loaded ∧
      Sorts path.render (declaringLines bytes) routines errors ∧
      loaded.loader = ⟨routines.foldl Catalogue.store loader.catalogue, loader.errors ++ errors⟩ ∧
      loaded.count = routines.length := by
  obtain ⟨routines, errors, hsorts, hload⟩ := exists_sorts_loadLines loader path.render 1
    (splitLines (foldNewlines (Utf8.decode bytes)))
  have hread : files.readText path = .ok (some (foldNewlines (Utf8.decode bytes))) := by
    simp only [FileTree.readText, hfile]
  simp only [loadFile, hread]
  exact ⟨_, routines, errors, rfl, hsorts, congrArg Prod.fst hload, congrArg Prod.snd hload⟩

/-- What the load of a path comes to, unless it leads to a directory. -/
theorem loadFile_cases {files : FileTree} {path : Path} {loaded : Loaded}
    (h : loader.loadFile files path = .ok loaded) :
    files.look path = none ∧ loaded.loader = loader.reject (.missingFile path.render) ∨
    ∃ bytes routines errors, files.look path = some (.file bytes) ∧
      Sorts path.render (declaringLines bytes) routines errors ∧
      loaded.loader =
        ⟨routines.foldl Catalogue.store loader.catalogue, loader.errors ++ errors⟩ := by
  match hlook : files.look path with
  | none =>
    simp only [loadFile, FileTree.readText, hlook] at h
    cases h
    exact .inl ⟨rfl, rfl⟩
  | some .directory =>
    simp only [loadFile, FileTree.readText, hlook] at h
    cases h
  | some (.file bytes) =>
    obtain ⟨_, routines, errors, hload, hsorts, hloaded, -⟩ := exists_sorts_loadFile loader hlook
    rw [h] at hload
    cases hload
    exact .inr ⟨bytes, routines, errors, rfl, hsorts, hloaded⟩

end Loader
end PascalCheck
