import PascalCheck.Builtin.Standard
import Mathlib.Data.List.Induction

/-! # Tables of built-in routines

A table has one routine for each of its names.  A routine that is put into it takes the place of the
one that had its name, or comes behind all others (`Puts`); so of several routines of one name the
last one put in is the one that is there in the end (`mem_insertAll_iff`). -/
namespace PascalCheck
namespace BuiltinRoutine

/-- No two routines have the same name. -/
abbrev AreDistinct (routines : List BuiltinRoutine) : Prop :=
  (routines.map name).Nodup

/-- One routine more: in the place of the one that has its name, or behind all others where none
has. -/
inductive Puts (routine : BuiltinRoutine) : List BuiltinRoutine → List BuiltinRoutine → Prop where
  | behind {routines : List BuiltinRoutine} : (∀ other ∈ routines, other.name ≠ routine.name) →
    Puts routine routines (routines ++ [routine])
  | inPlace {before after : List BuiltinRoutine} {old : BuiltinRoutine} : old.name = routine.name →
    (∀ other ∈ before ++ after, other.name ≠ routine.name) →
    Puts routine (before ++ old :: after) (before ++ routine :: after)

section
variable {routine f : BuiltinRoutine} {routines added : List BuiltinRoutine}

/-- A routine with a new name comes last. -/
theorem insert_of_fresh (h : ∀ other ∈ routines, other.name ≠ routine.name) :
    routine.insert routines = routines ++ [routine] := by
  induction routines with
  | nil => rfl
  | cons other rest ih =>
    obtain ⟨hother, hrest⟩ := List.forall_mem_cons.mp h
    rw [insert, if_neg hother, ih hrest, List.cons_append]

theorem Puts.cons {next : List BuiltinRoutine} (h : routine.Puts routines next)
    (hname : f.name ≠ routine.name) : routine.Puts (f :: routines) (f :: next) := by
  cases h with
  | behind hfresh => exact .behind (List.forall_mem_cons.mpr ⟨hname, hfresh⟩)
  | @inPlace before after old hold hfresh =>
    show routine.Puts ((f :: before) ++ old :: after) ((f :: before) ++ routine :: after)
    exact .inPlace hold (List.forall_mem_cons.mpr ⟨hname, hfresh⟩)

/-- The insertion of a routine puts it into a table of distinct names. -/
theorem puts_insert (routine : BuiltinRoutine) (h : AreDistinct routines) :
    routine.Puts routines (routine.insert routines) := by
  induction routines with
  | nil => exact .behind (by simp)
  | cons other rest ih =>
    obtain ⟨hother, hrest⟩ := List.nodup_cons.mp h
    by_cases hname : other.name = routine.name
    · rw [insert, if_pos hname]
      show routine.Puts ([] ++ other :: rest) ([] ++ routine :: rest)
      refine .inPlace hname fun next hnext heq => hother ?_
      exact List.mem_map.mpr ⟨next, hnext, heq.trans hname.symm⟩
    · rw [insert, if_neg hname]
      exact (ih hrest).cons hname

/-- Names stay distinct, whether a routine is replaced or added. -/
theorem Puts.areDistinct {next : List BuiltinRoutine} (h : routine.Puts routines next)
    (hdistinct : AreDistinct routines) : AreDistinct next := by
  cases h with
  | behind hfresh =>
    rw [AreDistinct, List.map_append, List.nodup_append]
    refine ⟨hdistinct, by simp, ?_⟩
    simpa using hfresh
  | inPlace hold => simpa [AreDistinct, hold] using hdistinct

theorem AreDistinct.insert (h : AreDistinct routines) : AreDistinct (routine.insert routines) :=
  (puts_insert routine h).areDistinct h

theorem AreDistinct.insertAll (added : List BuiltinRoutine) (h : AreDistinct routines) :
    AreDistinct (added.foldl (fun all routine => routine.insert all) routines) := by
  induction added generalizing routines with
  | nil => exact h
  | cons routine rest ih => exact ih h.insert

/-- Routines of different names are put behind each other. -/
theorem insertAll_of_distinct (h : AreDistinct (routines ++ added)) :
    added.foldl (fun all routine => routine.insert all) routines = routines ++ added := by
  induction added generalizing routines with
  | nil => rw [List.foldl_nil, List.append_nil]
  | cons routine rest ih =>
    have hfresh : ∀ other ∈ routines, other.name ≠ routine.name := by
      intro other hother heq
      rw [AreDistinct, List.map_append, List.nodup_append] at h
      exact h.2.2 _ (List.mem_map_of_mem hother) _ (by simp) heq
    have hsplit : routines ++ routine :: rest = (routines ++ [routine]) ++ rest := by simp
    rw [List.foldl_cons, insert_of_fresh hfresh, ih (hsplit ▸ h), hsplit]

theorem insertAll_nil_of_distinct (h : AreDistinct added) :
    added.foldl (fun all routine => routine.insert all) [] = added := by
  have hnil : AreDistinct ([] ++ added) := h
  exact insertAll_of_distinct hnil

/-- The table has the routine that was put in, and the others of before. -/
theorem Puts.mem_iff {next : List BuiltinRoutine} (h : routine.Puts routines next) :
    f ∈ next ↔ f = routine ∨ f ∈ routines ∧ f.name ≠ routine.name := by
  cases h with
  | behind hfresh =>
    rw [List.mem_append, List.mem_singleton, or_comm]
    exact or_congr_right ⟨fun hf => ⟨hf, hfresh f hf⟩, And.left⟩
  | @inPlace before after old hold hfresh =>
    have hne : f ∈ before ++ after → f.name ≠ routine.name := hfresh f
    simp only [List.mem_append, List.mem_cons] at hne ⊢
    constructor
    · rintro (hf | rfl | hf)
      · exact .inr ⟨.inl hf, hne (.inl hf)⟩
      · exact .inl rfl
      · exact .inr ⟨.inr (.inr hf), hne (.inr hf)⟩
    · rintro (rfl | ⟨hf | rfl | hf, hname⟩)
      · exact .inr (.inl rfl)
      · exact .inl hf
      · exact absurd hold hname
      · exact .inr (.inr hf)

/-- **The last one of its name**: what is there in the end is what was put in after all others of
its name. -/
theorem mem_insertAll_iff : f ∈ added.foldl (fun all routine => routine.insert all) [] ↔
    ∃ before after, added = before ++ f :: after ∧ ∀ other ∈ after, other.name ≠ f.name := by
  induction added using List.reverseRecOn with
  | nil => simp
  | append_singleton rest routine ih =>
    have hnil : AreDistinct [] := List.nodup_nil
    have hputs := puts_insert routine (hnil.insertAll rest)
    rw [List.foldl_append, List.foldl_cons, List.foldl_nil, hputs.mem_iff, ih]
    constructor
    · rintro (rfl | ⟨⟨before, after, rfl, hafter⟩, hname⟩)
      · exact ⟨rest, [], rfl, by simp⟩
      · refine ⟨before, after ++ [routine], by simp, ?_⟩
        exact List.forall_mem_append.mpr ⟨hafter, by simpa using hname.symm⟩
    · rintro ⟨before, after, heq, hafter⟩
      rcases List.eq_nil_or_concat after with rfl | ⟨after, last, rfl⟩
      · exact .inl (by simpa using (List.append_inj' heq rfl).2.symm)
      · obtain ⟨hrest, hlast⟩ := List.append_inj' (heq.trans (by simp [List.concat_eq_append] :
          before ++ f :: after.concat last = (before ++ f :: after) ++ [last])) rfl
        cases hlast
        obtain ⟨hafter, hname⟩ := List.forall_mem_append.mp (List.concat_eq_append ▸ hafter)
        exact .inr ⟨⟨before, after, hrest, hafter⟩, (hname routine (by simp)).symm⟩

end
end BuiltinRoutine
end PascalCheck
