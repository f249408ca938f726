import PascalCheck.Proofs.Check.LexicalScoping
import PascalCheck.Proofs.Check.Reports
import PascalCheck.Proofs.Walk.Entries
import PascalCheck.Proofs.Walk.Protection

/-! # Counters are protected in the bodies of their loops

An assignment to a name, or the reading of a value into it, is reported as the modification of a
counter just where it stands in the body of a loop that counts with the name, and no loop that
counts with it too has ended in the innermost such body before; and the reports are the errors on
modified counters that the bag of the check has (`ProtectsCounters`).  **This is how every source is
checked** (`ofSource_protectsCounters`). -/
namespace PascalCheck

/-- What an analysis of the tree that ends in the state says of counters, and what the bag has of
that, is what the tree says. -/
structure ProtectsCounters (catalogue : Catalogue) (tree : Program) (s : AnalysisState)
    (bag : Bag) : Prop where
  /-- The walk is through the positions, in order. -/
  steps : tree.positions.map Position.action = tree.toNode.script
  /-- What is modified has a name, which no missing counter is taken for. -/
  named : ∀ position ∈ tree.positions, ∀ name line,
    position.action.modified? = some (name, line) → name ≠ ""
  /-- The errors of the bag on modified counters are those of the places in the text where what is
  modified means a symbol and is protected, one for each such place, in order. -/
  errors : bag.entries.filter Diagnostic.isModification =
    (tree.positions.filterMap Position.violation?).map LocatedFinding.diagnostic
  /-- What is modified means a symbol where it does so in the text, and if it does, the modification
  is reported, once, just where the name is protected: then its error is in the bag, behind those of
  the walk so far. -/
  reports : ∀ position ∈ tree.positions, ∀ name line,
    position.action.modified? = some (name, line) → ∃ here next,
      position.Passes catalogue here next ∧
      (here.table.find? name).isSome = ((Lexicon.behind position.before).meaning name).isSome ∧
      ((here.table.find? name).isSome = true →
        next.modified = here.modified ++
          (if position.isProtected (Text.lower name) then [⟨.counterModified name, line⟩] else []) ∧
        next.modified.map LocatedFinding.diagnostic <+:
          bag.entries.filter Diagnostic.isModification)
  /-- Over the whole run there are no other reports. -/
  modified : s.modified = tree.positions.filterMap Position.violation?
  /-- The set of protected names is at each position what the tree says. -/
  guards : ∀ position ∈ tree.positions, ∃ here next, position.Passes catalogue here next ∧
    ∀ key, key ∈ here.counters ↔ position.isProtected key = true
  /-- It is empty at the start of every routine. -/
  routines : ∀ position ∈ tree.positions, ∀ routine, position.action = .enterRoutine routine →
    ∃ here next, position.Passes catalogue here next ∧ here.counters = [] ∧ next.counters = []
  /-- It is empty between the statements of the program. -/
  statements : ∀ front back line, tree.body = .block (front ++ back) line →
    ∃ held here, Analysis.Reaches catalogue
      (Node.scripts tree.declarations ++ Node.scripts front) held here ∧ here.counters = []
  /-- It is empty at the end. -/
  counters : s.counters = []

namespace Analysis
variable {catalogue : Catalogue} {p : Program} {s : AnalysisState} {bag : Bag}

/-- Where a routine is entered no name is protected. -/
theorem counters_entering (ht : p.isTiered = true) {front : List Position} {position : Position}
    {around : List Surrounding} {here next : AnalysisState} (hmem : position ∈ p.positions)
    (h : Passage catalogue front position around here next) {routine : DeclaredRoutine}
    (haction : position.action = .enterRoutine routine) :
    here.counters = [] ∧ next.counters = [] := by
  have haround := Program.around_of_isEntry ht hmem (by rw [haction]; rfl)
  have hhere : here.counters = [] := Guards.eq_nil (haround ▸ h.guards_here)
  obtain ⟨types, hmarks, -⟩ := h.effect
  rw [haction] at hmarks
  exact ⟨hhere, (congrArg Marks.counters hmarks).trans hhere⟩

/-- Between two statements of the program no name is protected. -/
theorem counters_between {last : AnalysisState} {held : Held}
    (h : Reaches catalogue p.toNode.script held last) {front back : List Node} {line : Int}
    (hbody : p.body = .block (front ++ back) line) :
    ∃ held here, Reaches catalogue (Node.scripts p.declarations ++ Node.scripts front) held here ∧
      here.counters = [] := by
  -- The declarations and the statements in front lead back to where nothing stands around.
  have hclosed := (Node.isClosed_layouts p.declarations).andThen (Node.isClosed_layouts front)
  have hsteps : (((Node.layouts p.declarations).andThen (Node.layouts front)) [] []).map
      Position.action = Node.scripts p.declarations ++ Node.scripts front := by
    rw [Layout.map_action_andThen, Node.map_action_layouts, Node.map_action_layouts]
  have hscript : p.toNode.script =
      (Node.scripts p.declarations ++ Node.scripts front) ++ Node.scripts back := by
    rw [Program.toNode, Node.script, hbody, Body.script, Node.scripts_append, List.append_assoc]
  rw [hscript] at h
  obtain ⟨held, here, hhere⟩ := h.before
  exact ⟨held, here, hhere, ((hclosed [] [] rfl).guards (hsteps ▸ hhere)).eq_nil⟩

/-- **Counters are protected in every program** whose declarations stand in front of its statements,
whose targets have names, and whose analysis comes to its end. -/
theorem protectsCounters_of_run (ht : p.isTiered = true) (hn : AreNamed p.toNode.script)
    (h : run catalogue p = .ok s) (hbag : bag.ShowsFindings s) :
    ProtectsCounters catalogue p s bag := by
  obtain ⟨last, hreaches, -, hmarks, hlast⟩ := exists_reaches_of_run h
  have hscript := p.map_action_positions
  have hadmits : ({} : Lexicon).admitsAll (p.positions.map Position.action) = true :=
    hscript ▸ p.admitsAll_script ht
  have hmodified : s.modified = p.positions.filterMap Position.violation? := by
    rw [← p.route_positions.modified hadmits hreaches]
    exact congrArg Marks.modified hmarks
  refine ⟨hscript, fun position hmem => ?_, ?_, fun position hmem name line haction => ?_,
    hmodified, fun position hmem => ?_, fun position hmem routine haction => ?_,
    fun front back line hbody => ?_, ?_⟩
  · rw [← hscript] at hn
    exact hn position.action (List.mem_map_of_mem hmem)
  · rw [hbag.modifications, hmodified]
  · obtain ⟨front, rest, next, here, there, hpositions, hpassage⟩ :=
      p.route_positions.exists_passage hreaches hmem
    refine ⟨here, there, hpassage.passes, ?_, fun hfound => ?_⟩
    · obtain ⟨held, -, hhere, -⟩ := hpassage.passes
      rw [hpositions, List.map_append, Lexicon.admitsAll_append, Bool.and_eq_true] at hadmits
      rw [hpassage.before] at hhere ⊢
      exact (describes_of_reaches hadmits.1 hhere).1.isSome_find? name
    · have hkept := (hpassage.continues hpositions hreaches).trans hlast
      refine ⟨?_, ?_⟩
      · rw [hpassage.modified_eq haction, hfound, Bool.true_and]
      · rw [hbag.modifications]
        exact (hkept.filter _).map _
  · obtain ⟨front, -, next, here, there, -, hpassage⟩ :=
      p.route_positions.exists_passage hreaches hmem
    exact ⟨here, there, hpassage.passes, hpassage.guards_here⟩
  · obtain ⟨front, -, next, here, there, -, hpassage⟩ :=
      p.route_positions.exists_passage hreaches hmem
    exact ⟨here, there, hpassage.passes, counters_entering ht hmem hpassage haction⟩
  · exact counters_between (hscript ▸ hreaches) hbody
  · exact (congrArg Marks.counters hmarks).trans (p.route_positions.guards hreaches).eq_nil

end Analysis

namespace Outcome

/-- **Counters are protected in every source**: with any built-in routines that can be loaded, its
check gives an outcome, and the analysis behind it reports the modifications of counters that the
tree shows, one by one, each as an error in the bag. -/
theorem ofSource_protectsCounters {loader : Loader} (h : loader.Reachable) (name source : String) :
    ∃ outcome tree s, ofSource loader.catalogue name source = .ok outcome ∧
      outcome.program = some tree ∧ outcome.table = some s.table ∧
      outcome.bag.entries = (Lexed.ofSource source).diagnostics ++
        (Grammar.parse (Lexed.ofSource source).tokens).faults.map GrammarFault.diagnostic ++
          s.findings.toList.map LocatedFinding.diagnostic ∧
      ProtectsCounters loader.catalogue tree s outcome.bag := by
  obtain ⟨outcome, s, hcheck, hrun, htree, htable, hentries, hbag⟩ :=
    exists_findings_of_source h name source
  have hprotects := Analysis.protectsCounters_of_run (Grammar.isTiered_parse _)
    (Grammar.areNamed_parse source) hrun hbag
  exact ⟨outcome, _, s, hcheck, htree, htable, hentries, hprotects⟩

/-- The inner loop over the same counter gives it free for the rest of the outer body. -/
def nestedLoops : String :=
  "var i: real; begin for i := 1 to 2 do begin for I := 1 to 2 do i := 0; read(i) end end."

theorem ofSource_protectsCounters_nested :
    ∃ outcome tree s,
      ofSource (Loader.loadStandard {}).catalogue "nested" nestedLoops = .ok outcome ∧
      outcome.program = some tree ∧ outcome.table = some s.table ∧
      outcome.bag.entries = (Lexed.ofSource nestedLoops).diagnostics ++
        (Grammar.parse (Lexed.ofSource nestedLoops).tokens).faults.map GrammarFault.diagnostic ++
          s.findings.toList.map LocatedFinding.diagnostic ∧
      ProtectsCounters (Loader.loadStandard {}).catalogue tree s outcome.bag :=
  ofSource_protectsCounters (.standard .empty) _ _

/-- The reading in front of the inner loop and the assignment in it are in error, the reading behind
it is not. -/
example : (ofSource (Loader.loadStandard {}).catalogue ""
    "var i: integer; begin for i := 1 to 2 do begin
read(i); for I := 1 to 2 do
i := 0; read(i) end end."
    ).toOption.map (fun outcome => outcome.bag.errors.map Diagnostic.line) = some [2, 3] := by
  decide +kernel

end Outcome
end PascalCheck
