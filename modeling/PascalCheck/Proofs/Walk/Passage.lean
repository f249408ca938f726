import Mathlib.Data.List.Induction
import PascalCheck.Proofs.Walk.Marks
import PascalCheck.Proofs.Walk.Positions

/-! # Walks through the positions of a program

A walk that comes to its end has come through every position of the program, in one state to it and
in another out of it (`Passage`).  Where it passes over something it is in an assignment, so that no
scope and no loop is entered or left there; otherwise the step has its effect.  What all passages
keep holds wherever the walk comes to (`Route.reached_induction`). -/
namespace PascalCheck
open Analysis

variable {catalogue : Catalogue}

/-- A walk comes to the position in the one state, and leaves it in the other. -/
def Position.Passes (catalogue : Catalogue) (position : Position) (here next : AnalysisState) :
    Prop :=
  ∃ held held', Reaches catalogue position.before held here ∧
    StateT.run (position.action.perform catalogue held) here = .ok (held', next)

/-- A walk through a position behind others, from one state to another, and what stands around the
place that it comes to. -/
structure Passage (catalogue : Catalogue) (front : List Position) (position : Position)
    (around : List Surrounding) (here next : AnalysisState) : Prop where
  route : Route [] [] front position.around
  before : position.before = front.map Position.action
  leads : Leads position.around position.before position.action around
  passes : position.Passes catalogue here next
  /-- What is passed over belongs to an assignment. -/
  performs : (∃ types held, StateT.run (position.action.effect catalogue types) here =
      .ok (held, next)) ∨
    next = here ∧ (position.action.isTyping = true ∨ position.action.isStore = true)

namespace Action
variable {action : Action}

/-- The steps of expressions leave no marks. -/
theorem onMarks_of_isTyping (h : action.isTyping = true) (types : List Ty) (table : ScopeTable)
    (marks : Marks) : action.onMarks types table marks = marks := by
  cases action <;> first | rfl | cases h

theorem onMarks_of_isStore (h : action.isStore = true) (types : List Ty) (table : ScopeTable)
    (marks : Marks) : action.onMarks types table marks = marks := by
  cases action <;> first | rfl | cases h

theorem isStore_of_leaves_assignment (h : action.leaves .assignment = true) :
    action.isStore = true := by
  cases action <;> first | rfl | cases h

/-- Only the left side of an assignment has anything passed over. -/
theorem enters?_of_stops {table : ScopeTable}
    (h : action.stops table = true) : action.enters? = some .assignment := by
  cases action <;> first | rfl | cases h

theorem enters?_of_leaves {enclosure : Enclosure} (h : action.leaves enclosure = true) :
    action.enters? = none := by
  cases action <;> first | rfl | cases h

end Action

theorem Surrounding.eq_cons_of_areFree {around : List Surrounding}
    (h : Surrounding.areFree around = false) :
    ∃ front outer, around = ⟨.assignment, front⟩ :: outer := by
  unfold Surrounding.areFree at h
  split at h
  · exact ⟨_, _, rfl⟩
  · cases h

/-- In an assignment stand the steps of expressions, and the end of the assignment. -/
theorem Leads.in_assignment {around next : List Surrounding} {before : List Action}
    {action : Action} (h : Leads around before action next)
    (hin : Surrounding.areFree around = false) :
    action.isTyping = true ∧ next = around ∨
      action.isStore = true ∧ Surrounding.areFree next = true := by
  cases h with
  | enters _ hfree =>
    rw [hin] at hfree
    cases hfree
  | @leaves inner _ haround hleaves hfree =>
    obtain ⟨front, outer, hcons⟩ := Surrounding.eq_cons_of_areFree hin
    obtain ⟨rfl, -⟩ := List.cons.inj (haround.symm.trans hcons)
    exact .inr ⟨Action.isStore_of_leaves_assignment hleaves, hfree⟩
  | stays _ hfree =>
    rcases hfree with hfree | htyping
    · rw [hin] at hfree
      cases hfree
    · exact .inl ⟨htyping, rfl⟩

/-- The steps of a walk take no finding back. -/
theorem Analysis.Reaches.continues {actions rest : List Action} {held held' : Held}
    {s s' : AnalysisState} (h : Reaches catalogue actions held s)
    (h' : Reaches catalogue (actions ++ rest) held' s') : s.Continues s' := by
  induction rest using List.reverseRecOn generalizing held' s' with
  | nil =>
    rw [List.append_nil] at h'
    obtain ⟨-, rfl⟩ := Prod.mk.inj (Except.ok.inj (h.symm.trans h'))
    exact .of_findings_eq rfl
  | append_singleton rest action ih =>
    rw [← List.append_assoc] at h'
    obtain ⟨held'', s'', hbefore, hrun⟩ := reaches_concat.mp h'
    refine (ih hbefore).trans ?_
    unfold Action.perform at hrun
    split at hrun
    · cases hrun
      exact .of_findings_eq rfl
    · exact (marks_effect action held''.types s'' held' s' hrun).2

namespace Route
variable {positions : List Position} {around : List Surrounding} {held : Held} {s : AnalysisState}

/-- **What is passed over belongs to an assignment.** -/
theorem in_assignment (h : Route [] [] positions around)
    (hreaches : Reaches catalogue (positions.map Position.action) held s)
    (hskipping : held.skipping = true) : Surrounding.areFree around = false := by
  refine h.concat_induction (I := fun positions around => ∀ held s,
    Reaches catalogue (positions.map Position.action) held s → held.skipping = true →
      Surrounding.areFree around = false) ?_ ?_ held s hreaches hskipping
  · intro held s hstart hskipping
    obtain ⟨rfl, -⟩ := reaches_nil.mp hstart
    cases hskipping
  · intro front position next _ _ hleads ih held' s' hreaches hskipping
    rw [List.map_append, List.map_singleton] at hreaches
    obtain ⟨held, s, hbefore, hrun⟩ := reaches_concat.mp hreaches
    unfold Action.perform at hrun
    by_cases hpassed : held.skipping = true
    · rw [if_pos hpassed] at hrun
      cases hrun
      rcases hleads.in_assignment (ih held _ hbefore hpassed) with ⟨-, rfl⟩ | ⟨hstore, -⟩
      · exact ih held _ hbefore hpassed
      · rw [hstore] at hskipping
        cases hskipping
    · -- A step that is performed makes the next ones be passed over if it is a left side.
      rw [if_neg hpassed] at hrun
      obtain ⟨⟨-, hstops⟩, -⟩ := moves_effect position.action held.types s held' s' hrun
      have henters := Action.enters?_of_stops (hstops.symm.trans hskipping)
      cases hleads with
      | enters h _ =>
        rw [henters] at h
        cases h
        rfl
      | leaves _ h _ =>
        rw [Action.enters?_of_leaves h] at henters
        cases henters
      | stays h _ =>
        rw [Action.isInner, henters] at h
        cases h

/-- A walk that comes out of a position has passed through it. -/
theorem passage {front : List Position} {position : Position} {held' : Held}
    {here next : AnalysisState} (h : Route [] [] front position.around)
    (hbefore : position.before = front.map Position.action)
    (hleads : Leads position.around position.before position.action around)
    (hreaches : Reaches catalogue position.before held here)
    (hrun : StateT.run (position.action.perform catalogue held) here = .ok (held', next)) :
    Passage catalogue front position around here next := by
  refine ⟨h, hbefore, hleads, ⟨held, held', hreaches, hrun⟩, ?_⟩
  unfold Action.perform at hrun
  by_cases hpassed : held.skipping = true
  · rw [if_pos hpassed] at hrun
    cases hrun
    rw [hbefore] at hreaches
    rcases hleads.in_assignment (h.in_assignment hreaches hpassed) with ⟨htyping, -⟩ | ⟨hstore, -⟩
    · exact .inr ⟨rfl, .inl htyping⟩
    · exact .inr ⟨rfl, .inr hstore⟩
  · rw [if_neg hpassed] at hrun
    exact .inl ⟨held.types, held', hrun⟩

/-- **What all passages keep holds wherever the walk comes to.** -/
theorem reached_induction {I : List Position → List Surrounding → AnalysisState → Prop}
    (h : Route [] [] positions around)
    (hreaches : Reaches catalogue (positions.map Position.action) held s) (hstart : I [] [] {})
    (hstep : ∀ front position around here next,
      Passage catalogue front position around here next → I front position.around here →
        I (front ++ [position]) around next) : I positions around s := by
  refine h.concat_induction (I := fun positions around => ∀ held s,
    Reaches catalogue (positions.map Position.action) held s → I positions around s) ?_ ?_
      held s hreaches
  · intro held s hnil
    obtain ⟨-, rfl⟩ := reaches_nil.mp hnil
    exact hstart
  · intro front position next hroute hbefore hleads ih held s hreaches
    rw [List.map_append, List.map_singleton] at hreaches
    obtain ⟨held', here, hhere, hrun⟩ := reaches_concat.mp hreaches
    have hpassage := hroute.passage hbefore hleads (hbefore ▸ hhere) hrun
    exact hstep front position next here s hpassage (ih held' here hhere)

/-- **A walk that comes to its end has passed through every position.** -/
theorem exists_passage (h : Route [] [] positions around)
    (hreaches : Reaches catalogue (positions.map Position.action) held s) {position : Position}
    (hmem : position ∈ positions) :
    ∃ front rest next here there, positions = front ++ position :: rest ∧
      Passage catalogue front position next here there := by
  obtain ⟨⟨next, hleads⟩, front, rest, rfl, hbefore, hroute⟩ := h.exists_of_mem hmem
  rw [List.map_append, List.map_cons, List.append_cons] at hreaches
  obtain ⟨held', there, hthere⟩ := hreaches.before
  obtain ⟨held, here, hhere, hrun⟩ := reaches_concat.mp hthere
  exact ⟨front, rest, next, here, there, rfl,
    hroute.passage hbefore hleads (hbefore ▸ hhere) hrun⟩

end Route

namespace Passage
variable {front : List Position} {position : Position} {around : List Surrounding}
  {here next : AnalysisState}

/-- **What a passage makes of the table and of the marks**: what is passed over would leave no
marks. -/
theorem effect (h : Passage catalogue front position around here next) :
    ∃ types, next.marks = position.action.onMarks types here.table here.marks ∧
      (next.table = position.action.onTable types here.table ∨
        next.table = here.table ∧
          (position.action.isTyping = true ∨ position.action.isStore = true)) := by
  rcases h.performs with ⟨types, held, hrun⟩ | ⟨rfl, htyping | hstore⟩
  · obtain ⟨⟨htable, -⟩, -⟩ := moves_effect position.action types here held next hrun
    exact ⟨types, (marks_effect position.action types here held next hrun).1, .inl htable⟩
  · exact ⟨[], (Action.onMarks_of_isTyping htyping _ _ _).symm, .inr ⟨rfl, .inl htyping⟩⟩
  · exact ⟨[], (Action.onMarks_of_isStore hstore _ _ _).symm, .inr ⟨rfl, .inr hstore⟩⟩

/-- What is found in a passage, and before, is there at the end of the walk. -/
theorem continues {positions rest : List Position} {held : Held} {s : AnalysisState}
    (h : Passage catalogue front position around here next)
    (hpositions : positions = front ++ position :: rest)
    (hreaches : Reaches catalogue (positions.map Position.action) held s) : next.Continues s := by
  obtain ⟨held₁, held₂, hhere, hrun⟩ := h.passes
  rw [hpositions, List.map_append, List.map_cons, List.append_cons, ← h.before] at hreaches
  exact (reaches_concat.mpr ⟨held₁, here, hhere, hrun⟩).continues hreaches

/-- What all passages keep holds where a walk comes to the position. -/
theorem induction {I : List Position → List Surrounding → AnalysisState → Prop}
    (h : Passage catalogue front position around here next)
    (hstart : I [] [] {})
    (hstep : ∀ front position around here next,
      Passage catalogue front position around here next → I front position.around here →
        I (front ++ [position]) around next) : I front position.around here := by
  obtain ⟨held, -, hreaches, -⟩ := h.passes
  exact h.route.reached_induction (h.before ▸ hreaches) hstart hstep

end Passage
end PascalCheck
