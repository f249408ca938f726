import PascalCheck.Proofs.Walk.Parts

/-! # The value of a constant

A constant has the type of its value.  In a script the steps of the value stand right in front of
the constant (`isValued_script`), so that where a walk comes to a constant, the last type that is
held is the one that the walk over the value gives (`Reaches.constant`). -/
namespace PascalCheck

/-- The steps of a value type expressions, also where the value is absent. -/
theorem ConstDeclaration.isTyping_of_mem_valueScript (declaration : ConstDeclaration) :
    AllSteps (·.isTyping = true) declaration.valueScript := by
  rcases declaration.valueScript_cases with hvalue | hvalue
  · exact hvalue ▸ .single rfl
  · exact hvalue ▸ declaration.value.isTyping_of_mem_script

/-- In front of every constant stand the steps of its value. -/
def IsValued (actions : List Action) : Prop :=
  ∀ front n line rest, actions = front ++ .constant n line :: rest →
    ∃ outer declaration, front = outer ++ ConstDeclaration.valueScript declaration ∧
      declaration.name = n ∧ declaration.line = line

namespace IsValued
variable {actions more : List Action}

/-- What has its values in front has them there behind other steps as well. -/
theorem append (h : IsValued actions) (h' : IsValued more) : IsValued (actions ++ more) := by
  intro front n line rest hsplit
  rcases Action.split_append hsplit with ⟨inner, hactions⟩ | ⟨between, rfl, hmore⟩
  · exact h front n line inner hactions
  · obtain ⟨outer, declaration, rfl, hconstant⟩ := h' between n line rest hmore
    exact ⟨actions ++ outer, declaration, (List.append_assoc _ _ _).symm, hconstant⟩

/-- Without a constant there is no value to ask for. -/
theorem of_allSteps (h : AllSteps (fun action => ∀ n line, action ≠ .constant n line) actions) :
    IsValued actions := by
  rintro front n line rest rfl
  exact absurd rfl (h (.constant n line) (by simp) n line)

theorem of_isTyping (h : AllSteps (·.isTyping = true) actions) : IsValued actions :=
  .of_allSteps fun action hmem n line haction => by
    have htyping := h action hmem
    rw [haction] at htyping
    cases htyping

/-- A declaration of a constant has the steps of its value in front. -/
theorem script (declaration : ConstDeclaration) : IsValued declaration.script := by
  intro front n line rest hsplit
  rw [declaration.script_eq] at hsplit
  rcases Action.split_append hsplit with ⟨inner, hvalue⟩ | ⟨between, rfl, hlast⟩
  · exact of_isTyping declaration.isTyping_of_mem_valueScript front n line inner hvalue
  · obtain ⟨rfl, hconstant⟩ | ⟨_, _, hnil⟩ := List.cons_eq_append_iff.mp hlast
    · cases hconstant
      exact ⟨[], declaration, List.append_nil _, rfl, rfl⟩
    · simp at hnil

theorem loopHead (counter : String) (start finish : Expr) (line : Int) :
    IsValued (Action.loopHead counter start finish line) := by
  have hbound : ∀ (e : Expr) which, IsValued (e.script ++ [.bound which line]) := fun e which =>
    (of_isTyping e.isTyping_of_mem_script).append (of_allSteps (.single nofun))
  have hcounter : IsValued [.counter counter line] := of_allSteps (.single nofun)
  exact ((hcounter.append (hbound start .start)).append (hbound finish .finish)).append
    (of_allSteps (.single nofun))

theorem holdsOfParts : HoldsOfParts IsValued where
  nil := of_allSteps .nil
  append := append
  single h := of_allSteps (.single fun _ _ haction => by
    rw [haction] at h
    cases h)
  expression e := of_isTyping e.isTyping_of_mem_script
  constant _ := script _
  head := loopHead

end IsValued

/-- **In front of every constant of a program stands its value.** -/
theorem Node.isValued_script (node : Node) : IsValued node.script :=
  IsValued.holdsOfParts.ofNode node

namespace Analysis
variable {catalogue : Catalogue}

/-- **Where a walk comes behind the value of a constant, it holds the type of the value.** -/
theorem Reaches.constant {outer : List Action} {declaration : ConstDeclaration} {types : List Ty}
    {here : AnalysisState}
    (h : Reaches catalogue (outer ++ declaration.valueScript) ⟨types, false⟩ here) :
    ∃ held start ty rest, Reaches catalogue outer held start ∧
      StateT.run (constantType catalogue declaration.value) start = .ok (ty, here) ∧
      types = ty :: rest := by
  unfold Reaches at h
  rw [performAll_append, run_bind_eq_ok] at h
  obtain ⟨⟨earlier, skipping⟩, start, houter, hvalue⟩ := h
  cases skipping with
  | true =>
    have hskip : ∀ a ∈ declaration.valueScript, a.isStore = false := fun a ha =>
      Action.isStore_of_isTyping (declaration.isTyping_of_mem_valueScript a ha)
    rw [performAll_true hskip] at hvalue
    cases hvalue
  | false =>
    rw [performAll_valueScript] at hvalue
    obtain ⟨ty, there, htype, hvalue⟩ := run_bind_eq_ok.mp hvalue
    cases hvalue
    exact ⟨_, start, ty, earlier, houter, htype, rfl⟩

end Analysis
end PascalCheck
