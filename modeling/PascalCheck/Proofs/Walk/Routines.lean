import PascalCheck.Proofs.Walk.Passage

/-! # The routines that are declared at a place

A walk records a routine when it enters it, and one of the same name gives way to it.  So what it
finds under a name at a place is the routine of that name that has been declared last in the text in
front of the place, the routines around the place included (`Passage.find?_routines`). -/
namespace PascalCheck

/-- The routine that the step declares. -/
def Action.routine? : Action → Option DeclaredRoutine
  | enterRoutine routine => some routine
  | _ => none

/-- The routine that the steps declare last under the name, in any letter case. -/
def lastRoutine? (steps : List Action) (name : String) : Option DeclaredRoutine :=
  (steps.filterMap Action.routine?).reverse.find? (·.key == Text.lower name)

theorem lastRoutine?_concat (steps : List Action) (action : Action) (name : String) :
    lastRoutine? (steps ++ [action]) name =
      (action.routine?.toList.find? (·.key == Text.lower name)).or (lastRoutine? steps name) := by
  unfold lastRoutine?
  rw [List.filterMap_append, List.reverse_append, List.find?_append]
  cases h : action.routine? with
  | none => rw [List.filterMap_cons_none h]; rfl
  | some routine => rw [List.filterMap_cons_some h]; rfl

namespace DeclaredRoutine

/-- A routine hides those of its name, and no others. -/
theorem find?_insert (routine : DeclaredRoutine) (routines : List DeclaredRoutine)
    (key : String) :
    (routine.insert routines).find? (·.key == key) =
      ([routine].find? (·.key == key)).or (routines.find? (·.key == key)) := by
  induction routines with
  | nil => exact (Option.or_none).symm
  | cons other rest ih =>
    rw [insert]
    by_cases hother : other.key = routine.key
    · rw [if_pos hother]
      by_cases hkey : routine.key = key
      · simp [hkey]
      · simp [hkey, hother]
    · rw [if_neg hother]
      by_cases hkey : other.key = key
      · have hne : routine.key ≠ key := fun h => hother (hkey.trans h.symm)
        simp [hkey, hne]
      · have hfalse : (other.key == key) = false := by simpa using hkey
        simp only [List.find?_cons, hfalse, ih]

end DeclaredRoutine

/-- Only the declaration of a routine changes what routines there are. -/
theorem Action.routines_onMarks (action : Action) (types : List Ty) (table : ScopeTable)
    (marks : Marks) :
    (action.onMarks types table marks).routines =
      action.routine?.elim marks.routines (·.insert marks.routines) := by
  cases action with
  | target n line | read routine n line =>
    show (if (table.find? n).isSome then marks.store n line else marks).routines = marks.routines
    split
    · unfold Marks.store
      split <;> rfl
    · rfl
  | enterLoop n =>
    show (if Text.lower n = "" then marks else marks.protect (Text.lower n)).routines =
      marks.routines
    split <;> rfl
  | result routine =>
    show (marks.declareResult table routine).routines = marks.routines
    unfold Marks.declareResult
    split <;> rfl
  | _ => rfl

/-- The routines that are recorded are the last ones that the steps declare. -/
def RecordsRoutines (steps : List Action) (s : AnalysisState) : Prop :=
  ∀ name, s.routines.find? (·.key == Text.lower name) = lastRoutine? steps name

namespace Passage
variable {catalogue : Catalogue} {front : List Position} {position : Position}
  {around : List Surrounding} {here next : AnalysisState}

/-- **A passage records the routine that its step declares.** -/
theorem recordsRoutines (h : Passage catalogue front position around here next)
    (hhere : RecordsRoutines (front.map Position.action) here) :
    RecordsRoutines ((front ++ [position]).map Position.action) next := by
  obtain ⟨types, hmarks, -⟩ := h.effect
  have hroutines : next.routines =
      position.action.routine?.elim here.routines (·.insert here.routines) :=
    (congrArg Marks.routines hmarks).trans (position.action.routines_onMarks _ _ _)
  intro name
  rw [hroutines, List.map_append, List.map_singleton, lastRoutine?_concat, ← hhere name]
  cases position.action.routine? with
  | none => rfl
  | some routine => exact routine.find?_insert here.routines (Text.lower name)

/-- **The routine of a name is the last one that is declared in front of the place.** -/
theorem find?_routines (h : Passage catalogue front position around here next) (name : String) :
    here.routines.find? (·.key == Text.lower name) = lastRoutine? position.before name := by
  have hrecords : RecordsRoutines (front.map Position.action) here :=
    h.induction (I := fun positions _ s => RecordsRoutines (positions.map Position.action) s)
      (fun _ => rfl) fun _ _ _ _ _ hpassage hhere => hpassage.recordsRoutines hhere
  rw [h.before]
  exact hrecords name

end Passage
end PascalCheck
