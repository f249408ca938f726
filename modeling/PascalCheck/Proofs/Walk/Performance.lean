import PascalCheck.Proofs.Walk.Ending
import PascalCheck.Proofs.Walk.Occurrences
import PascalCheck.Proofs.Walk.Passage
import PascalCheck.Proofs.Walk.Scoping

/-! # What is performed

An analysis that comes to its end has passed through every position of its program
(`exists_passage_of_run`).  If the declarations of the program stand in front of its statements,
then the steps in front of a position describe the table there (`Passage.describes`), and tell
whether its step is performed: it is, unless it stands in an assignment whose target is refused
(`Passage.performed`, `Passage.passed_over`). -/
namespace PascalCheck
open Analysis

namespace Passage
variable {catalogue : Catalogue} {front : List Position} {position : Position}
  {around : List Surrounding} {here next : AnalysisState}

/-- **The text in front of a position describes the table there.** -/
theorem describes (h : Passage catalogue front position around here next)
    (hadmits : ({} : Lexicon).admitsAll position.before = true) :
    (Lexicon.behind position.before).Describes here.table := by
  obtain ⟨held, -, hreaches, -⟩ := h.passes
  exact (describes_of_reaches hadmits hreaches).1

/-- **A step has its effect, unless it stands in an assignment whose target is refused.** -/
theorem performed (h : Passage catalogue front position around here next)
    (hadmits : ({} : Lexicon).admitsAll position.before = true)
    (hactive : ¬ Lexicon.IsRefused position.before) :
    ∃ types held, Reaches catalogue position.before ⟨types, false⟩ here ∧
      StateT.run (position.action.effect catalogue types) here = .ok (held, next) := by
  obtain ⟨⟨types, skipping⟩, held, hreaches, hrun⟩ := h.passes
  have hskipping := (describes_of_reaches hadmits hreaches).2.1
  rw [← Lexicon.skipping_behind_iff, ← hskipping, Bool.not_eq_true] at hactive
  dsimp only at hactive
  subst hactive
  exact ⟨types, held, hreaches, hrun⟩

/-- A step that neither belongs to an expression nor ends an assignment always has it. -/
theorem performed_of_free (h : Passage catalogue front position around here next)
    (hfree : ¬ (position.action.isTyping = true ∨ position.action.isStore = true)) :
    ∃ types held, Reaches catalogue position.before ⟨types, false⟩ here ∧
      StateT.run (position.action.effect catalogue types) here = .ok (held, next) := by
  obtain ⟨⟨types, skipping⟩, held, hreaches, hrun⟩ := h.passes
  cases skipping with
  | true =>
    -- What is passed over stands in an assignment.
    have hin := h.route.in_assignment (h.before ▸ hreaches) rfl
    exact absurd ((h.leads.in_assignment hin).imp And.left And.left) hfree
  | false => exact ⟨types, held, hreaches, hrun⟩

/-- In an assignment whose target is refused, a step has none. -/
theorem passed_over (h : Passage catalogue front position around here next)
    (hadmits : ({} : Lexicon).admitsAll position.before = true)
    (hrefused : Lexicon.IsRefused position.before) : next = here := by
  obtain ⟨⟨types, skipping⟩, held, hreaches, hrun⟩ := h.passes
  have hskipping := (describes_of_reaches hadmits hreaches).2.1
  rw [← Lexicon.skipping_behind_iff, ← hskipping] at hrefused
  dsimp only at hrefused
  subst hrefused
  cases hrun
  rfl

end Passage

variable {catalogue : Catalogue} {p : Program} {s : AnalysisState} {position : Position}

/-- **An analysis passes through every position of its program**, and takes nothing back of what it
has found there. -/
theorem Analysis.exists_passage_of_run (h : run catalogue p = .ok s)
    (hmem : position ∈ p.positions) :
    ∃ front around here next, Passage catalogue front position around here next ∧
      next.findings.toList <+: s.findings.toList := by
  obtain ⟨last, hreaches, -, -, hlast⟩ := exists_reaches_of_run h
  obtain ⟨front, rest, around, here, next, hpositions, hpassage⟩ :=
    p.route_positions.exists_passage hreaches hmem
  exact ⟨front, around, here, next, hpassage,
    (hpassage.continues hpositions hreaches).trans hlast⟩

/-- The steps up to a position are admitted where they stand, that of the position included. -/
theorem Program.admitsAll_through (ht : p.isTiered = true) (hmem : position ∈ p.positions) :
    ({} : Lexicon).admitsAll (position.before ++ [position.action]) = true := by
  obtain ⟨-, front, rest, hpositions, hbefore, -⟩ := p.route_positions.exists_of_mem hmem
  have hadmits := p.admitsAll_script ht
  rw [← p.map_action_positions, hpositions, List.map_append, List.map_cons, List.append_cons,
    Lexicon.admitsAll_append, Bool.and_eq_true] at hadmits
  rw [hbefore, List.nil_append]
  exact hadmits.1

theorem Program.admitsAll_before (ht : p.isTiered = true) (hmem : position ∈ p.positions) :
    ({} : Lexicon).admitsAll position.before = true := by
  have hadmits := p.admitsAll_through ht hmem
  rw [Lexicon.admitsAll_append, Bool.and_eq_true] at hadmits
  exact hadmits.1

end PascalCheck
