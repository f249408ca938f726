import PascalCheck.Proofs.Builtin.Loading
import Mathlib.Data.List.Forall2

/-! # Ranges of loaded routines

A declaration is loaded whatever its range: one with the greatest number of arguments below the
least one has no error, and no call of its routine can be right.  So after loads without an error
all routines can be called if and only if each range in force, one that no later declaration
replaces, was written in order (`callable_iff_ordered`). -/
namespace PascalCheck

namespace BuiltinRoutine

/-- The routine takes the place of the other one where both are loaded. -/
def Replaces (routine other : BuiltinRoutine) : Prop :=
  routine.isFunction = other.isFunction ∧ routine.name = other.name

/-- The routine is among those declared, and none behind it takes its place. -/
def IsInForce (declared : List BuiltinRoutine) (routine : BuiltinRoutine) : Prop :=
  ∃ before after, declared = before ++ routine :: after ∧ ∀ other ∈ after, ¬ other.Replaces routine

/-- A number of arguments is right for the routine. -/
def IsCallable (routine : BuiltinRoutine) : Prop :=
  ∃ count : Nat, routine.accepts count = true

theorem isCallable_iff {routine : BuiltinRoutine} (h : 0 ≤ routine.minimum) :
    routine.IsCallable ↔ routine.minimum ≤ routine.maximum := by
  simp only [IsCallable, accepts, Bool.and_eq_true, decide_eq_true_eq]
  constructor
  · rintro ⟨count, hmin, hmax⟩
    exact Int.le_trans hmin hmax
  · intro horder
    exact ⟨routine.minimum.toNat, by omega, by omega⟩

/-- What is left of the routines of one kind is what is in force. -/
theorem mem_insertAll_filter_iff (declared : List BuiltinRoutine) (f : BuiltinRoutine)
    (kind : Bool) :
    f ∈ (declared.filter (·.isFunction == kind)).foldl (fun all routine => routine.insert all) [] ↔
      f.isFunction = kind ∧ IsInForce declared f := by
  rw [mem_insertAll_iff]
  constructor
  · rintro ⟨before, after, hfilter, hafter⟩
    obtain ⟨before', rest, rfl, -, hrest⟩ := List.filter_eq_append_iff.mp hfilter
    obtain ⟨between, after', rfl, -, hkind, rfl⟩ := List.filter_eq_cons_iff.mp hrest
    have hf : f.isFunction = kind := by simpa using hkind
    refine ⟨hf, before' ++ between, after', by simp, fun other hother hreplaces => ?_⟩
    refine hafter other (List.mem_filter.mpr ⟨hother, ?_⟩) hreplaces.2
    simp [hreplaces.1, hf]
  · rintro ⟨rfl, before, after, rfl, hafter⟩
    refine ⟨before.filter (·.isFunction == f.isFunction),
      after.filter (·.isFunction == f.isFunction), ?_, ?_⟩
    · rw [List.filter_append, List.filter_cons_of_pos (by simp)]
    · intro other hother hname
      obtain ⟨hmem, hkind⟩ := List.mem_filter.mp hother
      exact hafter other hmem ⟨by simpa using hkind, hname⟩

end BuiltinRoutine

namespace Loader
variable {loader : Loader} {lines : List (List Char)}

/-- Loads of files one after the other into an empty loader, and the declaring lines in the files.
The files may change between the loads; a path that leads to a directory is not loaded at all. -/
inductive LoadsFiles : List (List Char) → Loader → Prop where
  | empty : LoadsFiles [] {}
  | file {lines : List (List Char)} {loader : Loader} {files : FileTree} {path : Path}
      {bytes : List UInt8} {loaded : Loaded} : LoadsFiles lines loader →
    files.look path = some (.file bytes) → loader.loadFile files path = .ok loaded →
    LoadsFiles (lines ++ (declaringLines bytes).map Prod.fst) loaded.loader
  | missing {lines : List (List Char)} {loader : Loader} {files : FileTree} {path : Path}
      {loaded : Loaded} : LoadsFiles lines loader → files.look path = none →
    loader.loadFile files path = .ok loaded → LoadsFiles lines loaded.loader

theorem Accepts.minimum_nonneg {line : List Char} {routine : BuiltinRoutine}
    (h : Accepts line routine) : 0 ≤ routine.minimum := by
  cases h with
  | function => exact Int.natCast_nonneg _
  | procedure => exact Int.natCast_nonneg _

theorem minimum_nonneg {declared : List BuiltinRoutine}
    (h : List.Forall₂ Accepts lines declared) : ∀ routine ∈ declared, 0 ≤ routine.minimum := by
  induction h with
  | nil => simp
  | cons haccepts _ ih => exact List.forall_mem_cons.mpr ⟨haccepts.minimum_nonneg, ih⟩

/-- Without an error every line has its routine. -/
theorem Sorts.forall₂_accepts {path : String} {numbered : List (List Char × Nat)}
    {routines : List BuiltinRoutine} (h : Sorts path numbered routines []) :
    List.Forall₂ Accepts (numbered.map Prod.fst) routines := by
  generalize herrors : ([] : List LoadError) = errors at h
  induction h with
  | nil => exact .nil
  | accepted haccepts _ ih => exact .cons haccepts (ih herrors)
  | refused => cases herrors

/-- Loads without an error are the loads of what the lines declare. -/
theorem LoadsFiles.exists_declared (h : LoadsFiles lines loader) (herrors : loader.errors = []) :
    ∃ declared, List.Forall₂ Accepts lines declared ∧
      loader.catalogue = declared.foldl Catalogue.store {} := by
  induction h with
  | empty => exact ⟨[], .nil, rfl⟩
  | file _ hlook hload ih =>
    rcases loadFile_cases hload with ⟨hnone, -⟩ | ⟨bytes, routines, errors, hfound, hsorts, heq⟩
    · rw [hlook] at hnone
      cases hnone
    · rw [hlook] at hfound
      cases hfound
      rw [heq] at herrors ⊢
      obtain ⟨hbefore, rfl⟩ := List.append_eq_nil_iff.mp herrors
      obtain ⟨declared, hdeclared, hcatalogue⟩ := ih hbefore
      refine ⟨declared ++ routines, List.rel_append hdeclared hsorts.forall₂_accepts, ?_⟩
      rw [List.foldl_append, ← hcatalogue]
  | missing _ hnone hload ih =>
    rcases loadFile_cases hload with ⟨-, heq⟩ | ⟨bytes, _, _, hfound, -⟩
    · rw [heq] at herrors
      simp [reject] at herrors
    · rw [hnone] at hfound
      cases hfound

/-- **Loads do not look at ranges**: where they report nothing, all routines can be called if and
only if every range in force is in order. -/
theorem callable_iff_ordered (h : LoadsFiles lines loader) (herrors : loader.errors = []) :
    ∃ declared, List.Forall₂ Accepts lines declared ∧
      ((∀ routine ∈ loader.catalogue.functions ++ loader.catalogue.procedures, routine.IsCallable) ↔
        ∀ routine, BuiltinRoutine.IsInForce declared routine →
          routine.minimum ≤ routine.maximum) := by
  obtain ⟨declared, hdeclared, hcatalogue⟩ := h.exists_declared herrors
  refine ⟨declared, hdeclared, ?_⟩
  have hmem : ∀ routine,
      routine ∈ loader.catalogue.functions ++ loader.catalogue.procedures ↔
        BuiltinRoutine.IsInForce declared routine := by
    intro routine
    have hfunctions := BuiltinRoutine.mem_insertAll_filter_iff declared routine true
    have hprocedures := BuiltinRoutine.mem_insertAll_filter_iff declared routine false
    simp only [beq_true, beq_false] at hfunctions hprocedures
    rw [hcatalogue, List.mem_append, Catalogue.functions_storeAll, Catalogue.procedures_storeAll,
      hfunctions, hprocedures, ← or_and_right]
    exact and_iff_right (Bool.eq_false_or_eq_true routine.isFunction)
  have hcallable : ∀ routine, BuiltinRoutine.IsInForce declared routine →
      (routine.IsCallable ↔ routine.minimum ≤ routine.maximum) := by
    rintro routine ⟨before, after, rfl, -⟩
    exact BuiltinRoutine.isCallable_iff (minimum_nonneg hdeclared routine (by simp))
  constructor
  · intro hall routine hroutine
    exact (hcallable routine hroutine).mp (hall routine ((hmem routine).mpr hroutine))
  · intro hall routine hroutine
    have hforce := (hmem routine).mp hroutine
    exact (hcallable routine hforce).mpr (hall routine hforce)

/-- A range from three to one argument is loaded without an error. -/
theorem callable_iff_ordered_reversed :
    ∃ loaded, ({} : Loader).loadFile
        ⟨[], [(["r"], .file "function f(3..1): integer;".toUTF8.data.toList)]⟩ ⟨"", ["r"]⟩ =
          .ok loaded ∧
      loaded.loader.errors = [] ∧
      ⟨"f", 3, 1, some (.fixed .integer)⟩ ∈ loaded.loader.catalogue.functions ∧
      ¬ BuiltinRoutine.IsCallable ⟨"f", 3, 1, some (.fixed .integer)⟩ ∧
      ∃ declared, List.Forall₂ Accepts ["function f(3..1): integer;".toList] declared ∧
        ((∀ routine ∈ loaded.loader.catalogue.functions ++ loaded.loader.catalogue.procedures,
            routine.IsCallable) ↔
          ∀ routine, BuiltinRoutine.IsInForce declared routine →
            routine.minimum ≤ routine.maximum) := by
  have hlines : (declaringLines "function f(3..1): integer;".toUTF8.data.toList).map Prod.fst =
      ["function f(3..1): integer;".toList] := by decide +kernel
  have hfile : FileTree.look
      ⟨[], [(["r"], .file "function f(3..1): integer;".toUTF8.data.toList)]⟩ ⟨"", ["r"]⟩ =
        some (.file "function f(3..1): integer;".toUTF8.data.toList) := rfl
  refine ⟨_, rfl, ?_, ?_, ?_, ?_⟩
  · decide +kernel
  · decide +kernel
  · rw [BuiltinRoutine.isCallable_iff (by decide)]
    decide
  · rw [← hlines]
    exact callable_iff_ordered (LoadsFiles.file .empty hfile rfl) (by decide +kernel)

end Loader
end PascalCheck
