import PascalCheck.Proofs.Builtin.Loading

/-! # Tables in order

Whatever has been loaded, the names in a table are distinct, a function has a result that a
declaration can name, and a procedure has none: one routine more keeps that (`Stores.isOrderly`),
and every load comes to routines that are put into the tables one after the other. -/
namespace PascalCheck

/-- The result, if there is one, is one that a declaration can name. -/
def BuiltinRoutine.IsTyped (routine : BuiltinRoutine) : Prop :=
  ∀ rule ∈ routine.result, rule ∈ ResultRule.all

namespace Catalogue

/-- One routine more in the table of its kind, and nothing else is changed. -/
inductive Stores (routine : BuiltinRoutine) : Catalogue → Catalogue → Prop where
  | function {functions next procedures : List BuiltinRoutine} : routine.isFunction = true →
    routine.Puts functions next → Stores routine ⟨functions, procedures⟩ ⟨next, procedures⟩
  | procedure {functions procedures next : List BuiltinRoutine} : routine.isFunction = false →
    routine.Puts procedures next → Stores routine ⟨functions, procedures⟩ ⟨functions, next⟩

/-- The routines one after the other. -/
inductive StoresAll : List BuiltinRoutine → Catalogue → Catalogue → Prop where
  | nil {catalogue : Catalogue} : StoresAll [] catalogue catalogue
  | cons {routine : BuiltinRoutine} {routines : List BuiltinRoutine}
      {catalogue next last : Catalogue} : Stores routine catalogue next →
    StoresAll routines next last → StoresAll (routine :: routines) catalogue last

/-- What holds of the routines in a catalogue whatever has been loaded. -/
structure IsOrderly (catalogue : Catalogue) : Prop where
  functions_distinct : BuiltinRoutine.AreDistinct catalogue.functions
  procedures_distinct : BuiltinRoutine.AreDistinct catalogue.procedures
  functions_typed : ∀ f ∈ catalogue.functions, ∃ rule ∈ ResultRule.all, f.result = some rule
  procedures_untyped : ∀ p ∈ catalogue.procedures, p.result = none

section
variable {catalogue : Catalogue} {routine : BuiltinRoutine} {routines : List BuiltinRoutine}

/-- To store a routine is to put it into the table of its kind. -/
theorem stores_store (routine : BuiltinRoutine) (h : catalogue.IsOrderly) :
    Stores routine catalogue (catalogue.store routine) := by
  unfold store
  split
  · rename_i hfunction
    exact .function hfunction (BuiltinRoutine.puts_insert routine h.functions_distinct)
  · rename_i hprocedure
    exact .procedure (Bool.eq_false_iff.mpr hprocedure)
      (BuiltinRoutine.puts_insert routine h.procedures_distinct)

/-- **One routine more keeps the tables in order.** -/
theorem Stores.isOrderly {next : Catalogue} (hstores : Stores routine catalogue next)
    (h : catalogue.IsOrderly) (htyped : routine.IsTyped) : next.IsOrderly := by
  cases hstores with
  | function hfunction hputs =>
    refine { h with
      functions_distinct := hputs.areDistinct h.functions_distinct, functions_typed := ?_ }
    intro f hf
    rcases hputs.mem_iff.mp hf with rfl | ⟨hold, -⟩
    · obtain ⟨rule, hrule⟩ := Option.isSome_iff_exists.mp hfunction
      exact ⟨rule, htyped rule hrule, hrule⟩
    · exact h.functions_typed f hold
  | procedure hprocedure hputs =>
    refine { h with
      procedures_distinct := hputs.areDistinct h.procedures_distinct, procedures_untyped := ?_ }
    intro p hp
    rcases hputs.mem_iff.mp hp with rfl | ⟨hold, -⟩
    · exact Option.not_isSome_iff_eq_none.mp (Bool.eq_false_iff.mp hprocedure)
    · exact h.procedures_untyped p hold

/-- Storing several routines puts them in one after the other, from one ordered state to the next.
-/
theorem storesAll_storeAll (h : catalogue.IsOrderly)
    (htyped : ∀ routine ∈ routines, routine.IsTyped) :
    StoresAll routines catalogue (routines.foldl store catalogue) ∧
      (routines.foldl store catalogue).IsOrderly := by
  induction routines generalizing catalogue with
  | nil => exact ⟨.nil, h⟩
  | cons routine rest ih =>
    obtain ⟨hroutine, hrest⟩ := List.forall_mem_cons.mp htyped
    have hstores := stores_store routine h
    obtain ⟨hall, horderly⟩ := ih (hstores.isOrderly h hroutine) hrest
    exact ⟨.cons hstores hall, horderly⟩

theorem IsOrderly.isFunction_of_mem_functions (h : catalogue.IsOrderly) :
    ∀ f ∈ catalogue.functions, f.isFunction = true := by
  intro f hf
  obtain ⟨rule, -, hrule⟩ := h.functions_typed f hf
  exact Option.isSome_iff_exists.mpr ⟨rule, hrule⟩

theorem IsOrderly.isFunction_of_mem_procedures (h : catalogue.IsOrderly) :
    ∀ p ∈ catalogue.procedures, p.isFunction = false := by
  intro p hp
  rw [BuiltinRoutine.isFunction, h.procedures_untyped p hp, Option.isSome_none]

/-- A catalogue that is put into another one has its routines put there one after the other. -/
theorem merge_eq_storeAll {other : Catalogue} (h : other.IsOrderly) :
    catalogue.merge other = (other.functions ++ other.procedures).foldl store catalogue := by
  have hfunctions := h.isFunction_of_mem_functions
  have hprocedures := h.isFunction_of_mem_procedures
  have hfilter : (other.functions ++ other.procedures).filter (·.isFunction) = other.functions := by
    rw [List.filter_append, List.filter_eq_self.mpr hfunctions,
      List.filter_eq_nil_iff.mpr (by simpa using hprocedures), List.append_nil]
  have hfilter' : (other.functions ++ other.procedures).filter (!·.isFunction) =
      other.procedures := by
    rw [List.filter_append, List.filter_eq_nil_iff.mpr (by simpa using hfunctions),
      List.filter_eq_self.mpr (by simpa using hprocedures), List.nil_append]
  have hstored := functions_storeAll catalogue (other.functions ++ other.procedures)
  have hstored' := procedures_storeAll catalogue (other.functions ++ other.procedures)
  rw [hfilter] at hstored
  rw [hfilter'] at hstored'
  rw [merge, ← hstored, ← hstored']

/-- The tables that come with the checker are in order. -/
theorem isOrderly_standard : standard.IsOrderly where
  functions_distinct := by decide
  procedures_distinct := by decide
  functions_typed := by
    have htyped : ∀ f ∈ standard.functions, ∃ rule ∈ ResultRule.all, f.result = some rule := by
      decide
    exact htyped
  procedures_untyped := by decide

theorem IsOrderly.isTyped (h : catalogue.IsOrderly) :
    ∀ routine ∈ catalogue.functions ++ catalogue.procedures, routine.IsTyped := by
  intro routine hroutine rule hrule
  rcases List.mem_append.mp hroutine with hf | hp
  · obtain ⟨rule', hmem, hresult⟩ := h.functions_typed routine hf
    rw [hresult] at hrule
    cases hrule
    exact hmem
  · rw [h.procedures_untyped routine hp] at hrule
    cases hrule

/-- Tables in order are merged to such. -/
theorem IsOrderly.merge {other : Catalogue} (h : catalogue.IsOrderly) (hother : other.IsOrderly) :
    (catalogue.merge other).IsOrderly := by
  rw [merge_eq_storeAll hother]
  exact (storesAll_storeAll h hother.isTyped).2

theorem IsOrderly.store (h : catalogue.IsOrderly) (routine : BuiltinRoutine)
    (htyped : routine.IsTyped) : (catalogue.store routine).IsOrderly :=
  (stores_store routine h).isOrderly h htyped

end
end Catalogue

/-! ## Loads -/

namespace Loader
open Text
variable {loader : Loader}

/-- A result that a line gives a routine is one of those that have a name. -/
theorem Accepts.isTyped {line : List Char} {routine : BuiltinRoutine} (h : Accepts line routine) :
    routine.IsTyped := by
  cases h with
  | function _ _ _ hrule =>
    rintro _ ⟨⟩
    exact ResultRule.mem_all_of_ofName? hrule
  | procedure => rintro _ ⟨⟩

theorem Sorts.isTyped {path : String} {lines : List (List Char × Nat)}
    {routines : List BuiltinRoutine} {errors : List LoadError}
    (h : Sorts path lines routines errors) : ∀ routine ∈ routines, routine.IsTyped := by
  induction h with
  | nil => simp
  | accepted haccepts _ ih => exact List.forall_mem_cons.mpr ⟨haccepts.isTyped, ih⟩
  | refused _ _ ih => exact ih

/-- What a sequence of loads can lead to: of the standard routines, of tables, and of files, which
may change between the loads. -/
inductive Reachable : Loader → Prop where
  | empty : Reachable {}
  | standard {loader : Loader} : Reachable loader → Reachable loader.loadStandard
  | table {loader : Loader} (functions : List FunctionEntry) (procedures : List ProcedureEntry) :
    Reachable loader → Reachable (loader.loadTable functions procedures)
  | file {loader : Loader} {files : FileTree} {path : Path} {loaded : Loaded} :
    Reachable loader → loader.loadFile files path = .ok loaded → Reachable loaded.loader

/-- The entries of a table keep the order, as lines do. -/
theorem isOrderly_loadTable (h : loader.catalogue.IsOrderly) (functions : List FunctionEntry)
    (procedures : List ProcedureEntry) :
    (loader.loadTable functions procedures).catalogue.IsOrderly := by
  have hprocedures : ∀ loaded : Loader, loaded.catalogue.IsOrderly →
      (procedures.foldl addProcedure loaded).catalogue.IsOrderly := by
    induction procedures with
    | nil => exact fun _ h => h
    | cons entry rest ih =>
      intro loaded hloaded
      refine ih _ (hloaded.store ⟨lower entry.name, _, _, none⟩ ?_)
      rintro _ ⟨⟩
  unfold loadTable
  apply hprocedures
  induction functions generalizing loader with
  | nil => exact h
  | cons entry rest ih =>
    refine ih ?_
    unfold addFunction
    dsimp only
    split
    · rename_i rule hrule
      refine h.store ⟨lower entry.name, _, _, some rule⟩ ?_
      rintro _ ⟨⟩
      exact ResultRule.mem_all_of_ofName? hrule
    · exact h

/-- **Every loader that can be reached has its tables in order.** -/
theorem Reachable.isOrderly (h : loader.Reachable) : loader.catalogue.IsOrderly := by
  induction h with
  | empty => exact ⟨List.nodup_nil, List.nodup_nil, by simp, by simp⟩
  | standard _ ih => exact ih.merge Catalogue.isOrderly_standard
  | table functions procedures _ ih => exact isOrderly_loadTable ih functions procedures
  | file _ hloaded ih =>
    rcases loadFile_cases hloaded with ⟨-, hmissing⟩ | ⟨_, _, _, -, hsorts, hfound⟩
    · rw [hmissing]
      exact ih
    · rw [hfound]
      exact (Catalogue.storesAll_storeAll ih hsorts.isTyped).2

end Loader
end PascalCheck
