import PascalCheck.Builtin.Loader
import PascalCheck.Proofs.Walk.Ending
import PascalCheck.Proofs.Walk.Mirroring

/-! # Scopes mirror the nesting of the program

Every run that comes to its end has opened one scope for each routine and one for each block that is
a statement, inside of those around it, and closed it again behind it; wherever a name is declared
or looked up, the open scopes are those that the tree has around the place (`MirrorsNesting`). -/
namespace PascalCheck

/-- What a run that ends in the state has done with scopes is what the tree says. -/
structure MirrorsNesting (catalogue : Catalogue) (tree : Program) (s : AnalysisState) : Prop where
  /-- The walk is through the positions, in order. -/
  steps : tree.positions.map Position.action = tree.toNode.script
  /-- At each position the open scopes are those around it, and the record leads to them. -/
  around : ∀ position ∈ tree.positions, ∃ here next, position.Passes catalogue here next ∧
    here.table.scopes.map Scope.name = Surrounding.scopeNames position.around ∧
    ScopeEvent.openBehind? here.events.toList = some (Surrounding.scopeNames position.around) ∧
    -- A step that does not open or close a scope itself leaves them as they are to its end.
    (position.action.opensScope = false → position.action.closesScope = false →
      next.table.scopes.map Scope.name = Surrounding.scopeNames position.around ∧
      ∃ declared, next.events.toList = here.events.toList ++ declared ∧
        ∀ event ∈ declared, ∃ name ty line success,
          event = .declared name ty here.table.current.name line success)
  /-- The whole record is well nested, and leads back to the outermost scope. -/
  nested : ScopeEvent.openBehind? s.events.toList = some ["global"]
  depth : s.table.depth = 1
  scopes : s.table.scopes.map Scope.name = ["global"]

namespace Analysis
variable {catalogue : Catalogue} {p : Program} {s : AnalysisState}

/-- **Scopes mirror the nesting of every program** whose analysis comes to its end. -/
theorem mirrorsNesting_of_run (h : run catalogue p = .ok s) : MirrorsNesting catalogue p s := by
  obtain ⟨last, hreaches, htable, hmarks, -⟩ := exists_reaches_of_run h
  have hevents : s.events.toList = last.events.toList := congrArg Marks.events hmarks
  have hlast : Mirrors ["global"] (scopesOpened (p.positions.map Position.action)) s.table
      s.events.toList := by
    rw [htable, hevents]
    exact p.route_positions.inStep hreaches
  refine ⟨p.map_action_positions, fun position hmem => ?_, hlast.events, hlast.depth_eq,
    hlast.names_eq⟩
  obtain ⟨front, -, next, here, there, -, hpassage⟩ :=
    p.route_positions.exists_passage hreaches hmem
  have hhere := hpassage.induction Mirrors.start inStep_passage
  refine ⟨here, there, hpassage.passes, hhere.names_eq, hhere.events, fun hopens hcloses => ?_⟩
  have hthere := inStep_passage front position next here there hpassage hhere
  rw [InStep, hpassage.leads.scopeNames_eq hopens hcloses] at hthere
  refine ⟨hthere.names_eq, ?_⟩
  obtain ⟨types, hmarks, -⟩ := hpassage.effect
  obtain ⟨declared, hadded, hdeclared⟩ :=
    Action.declares_onMarks hopens hcloses types here.table here.marks
  exact ⟨declared, (congrArg Marks.events hmarks).trans hadded, hdeclared⟩

/-- A routine without a name, and in it one with a block for a statement. -/
theorem mirrorsNesting_of_run_unnamed :
    ∃ s, run {} { declarations := [.procedure "" [] [.procedure "P" [] []
        (.block [.block [] 4] 3) 2] .missing 1] } = .ok s ∧
      MirrorsNesting {} { declarations := [.procedure "" [] [.procedure "P" [] []
        (.block [.block [] 4] 3) 2] .missing 1] } s := by
  cases hrun : run {} { declarations := [.procedure "" [] [.procedure "P" [] []
      (.block [.block [] 4] 3) 2] .missing 1] } with
  | ok s => exact ⟨s, rfl, mirrorsNesting_of_run hrun⟩
  | error fault =>
    have hok : (run {} { declarations := [.procedure "" [] [.procedure "P" [] []
        (.block [.block [] 4] 3) 2] .missing 1] }).toBool = true := by
      decide +kernel
    rw [hrun] at hok
    cases hok

/-- The steps that open and close the three scopes stand in these. -/
example : ({ declarations := [.procedure "" [] [.procedure "P" [] []
    (.block [.block [] 4] 3) 2] .missing 1] } : Program).positions.map
      (fun position => Surrounding.scopeNames position.around) =
    [["global"], ["scope_2", "global"], ["scope_2", "global"], ["p", "scope_2", "global"],
      ["p", "scope_2", "global"], ["block_line_4", "p", "scope_2", "global"],
      ["p", "scope_2", "global"], ["scope_2", "global"]] := by
  decide +kernel

end Analysis
end PascalCheck
