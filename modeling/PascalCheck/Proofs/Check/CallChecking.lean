import PascalCheck.Proofs.Check.Reports
import PascalCheck.Proofs.Walk.Arguments
import PascalCheck.Proofs.Walk.Performance
import PascalCheck.Proofs.Walk.Routines

/-! # Calls are checked against the declarations of their routines

A call is written as a statement, or with parentheses in an expression.  Its name is looked up among
the built-in routines first, in another order by the one than by the other, and then among those of
the program.  A call that comes to a routine of the program is checked against the last declaration
of it that begins in front of the call: the bag has an error just where the numbers of arguments and
parameters differ (`ChecksCalls`).  **This is how every source is checked**
(`ofSource_checksCalls`). -/
namespace PascalCheck

/-- A call as a statement, or with parentheses in an expression. -/
structure WrittenCall where
  isStatement : Bool
  name : String
  arguments : Nat
  line : Int
  deriving DecidableEq

/-- The call that a step makes. -/
def Action.call? : Action → Option WrittenCall
  | call n arguments line => some ⟨false, n, arguments, line⟩
  | invoke n arguments line => some ⟨true, n, arguments, line⟩
  | _ => none

namespace WrittenCall
variable (call : WrittenCall) (routine : DeclaredRoutine)

/-- A built-in routine is called in place of one of the program: a function, or by a statement a
procedure. -/
def isBuiltin (catalogue : Catalogue) : Bool :=
  (catalogue.function? call.name).isSome ||
    call.isStatement && (catalogue.procedure? call.name).isSome

/-- An expression calls functions only. -/
def fits : Bool :=
  call.isStatement || routine.result.isSome

/-- What is found of the number of arguments. -/
def arityFound : List LocatedFinding :=
  if call.arguments = routine.parameters then []
  else [⟨.routineArity routine.kind call.name routine.parameters call.arguments, call.line⟩]

/-- **There is an error on the number of arguments just where the numbers differ.** -/
theorem error_arityFound_iff :
    (∃ d ∈ (call.arityFound routine).map LocatedFinding.diagnostic,
      d.isError = true ∧ d.isArgumentCount = true) ↔ call.arguments ≠ routine.parameters := by
  unfold arityFound
  split
  next h => simp [h]
  next h => simp [h, LocatedFinding.isArgumentCount_diagnostic, Finding.severity,
      Finding.isArgumentCount]

end WrittenCall

namespace Analysis
variable {catalogue : Catalogue} {s s' : AnalysisState} {name : String} {line : Int}
  {routine : DeclaredRoutine} {given : Nat}

theorem run_routine? {found : Option DeclaredRoutine}
    (h : StateT.run (routine? name) s = .ok (found, s')) :
    found = s.routines.find? (·.key == Text.lower name) ∧ s' = s := by
  cases h
  exact ⟨rfl, rfl⟩

/-- A call as a statement that comes to a routine of the program. -/
theorem run_checkCall (hprocedure : catalogue.procedure? name = none)
    (hfunction : catalogue.function? name = none)
    (hroutine : s.routines.find? (·.key == Text.lower name) = some routine)
    (h : StateT.run (checkCall catalogue name given line) s = .ok ((), s')) :
    s' = s.reporting (WrittenCall.arityFound ⟨true, name, given, line⟩ routine) := by
  unfold checkCall at h
  rw [hprocedure, hfunction] at h
  dsimp only at h
  obtain ⟨found, _, hfound, h⟩ := run_bind_eq_ok.mp h
  obtain ⟨rfl, rfl⟩ := run_routine? hfound
  rw [hroutine] at h
  dsimp only at h
  unfold WrittenCall.arityFound
  split at h
  next heq =>
    cases h
    rw [if_pos heq, AnalysisState.reporting_nil]
  next hne =>
    rw [if_neg hne]
    exact run_report h

/-- A call in an expression that comes to a function of the program. -/
theorem run_callType {types : List Ty} {ty : Ty} (hfunction : catalogue.function? name = none)
    (hroutine : s.routines.find? (·.key == Text.lower name) = some routine)
    (hresult : routine.result.isSome = true)
    (h : StateT.run (callType catalogue name types line) s = .ok (ty, s')) :
    s' = s.reporting (WrittenCall.arityFound ⟨false, name, types.length, line⟩ routine) := by
  obtain ⟨result, hsome⟩ := Option.isSome_iff_exists.mp hresult
  have hkind : routine.kind = .function := if_pos hresult
  unfold callType at h
  dsimp only at h
  rw [hfunction] at h
  dsimp only at h
  obtain ⟨found, _, hfound, h⟩ := run_bind_eq_ok.mp h
  obtain ⟨rfl, rfl⟩ := run_routine? hfound
  rw [hroutine] at h
  dsimp only at h
  rw [hsome] at h
  dsimp only at h
  unfold WrittenCall.arityFound
  rw [hkind]
  split at h
  next heq =>
    cases h
    rw [if_pos heq, AnalysisState.reporting_nil]
  next hne =>
    obtain ⟨_, reported, hreport, h⟩ := run_bind_eq_ok.mp h
    cases h
    rw [if_neg hne]
    exact run_report hreport

/-- A step that makes a call, to a routine of the program. -/
theorem run_effect_of_call? {action : Action} {call : WrittenCall} {types : List Ty} {held : Held}
    (hcall : action.call? = some call) (hbuiltin : call.isBuiltin catalogue = false)
    (hroutine : s.routines.find? (·.key == Text.lower call.name) = some routine)
    (hfits : call.fits routine = true)
    (hgiven : call.isStatement = true ∨ call.arguments ≤ types.length)
    (h : StateT.run (action.effect catalogue types) s = .ok (held, s')) :
    s' = s.reporting (call.arityFound routine) := by
  unfold WrittenCall.isBuiltin at hbuiltin
  rw [Bool.or_eq_false_iff, Option.isSome_eq_false_iff, Option.isNone_iff_eq_none] at hbuiltin
  cases action with
  | invoke name given line =>
    cases hcall
    obtain ⟨_, _, hcheck, h⟩ := run_bind_eq_ok.mp h
    cases h
    have hprocedure : catalogue.procedure? name = none := by simpa using hbuiltin.2
    exact run_checkCall hprocedure hbuiltin.1 hroutine hcheck
  | call name given line =>
    cases hcall
    obtain ⟨ty, _, htype, h⟩ := run_bind_eq_ok.mp h
    cases h
    have hlength : (types.take given).reverse.length = given := by
      rw [List.length_reverse, List.length_take, Nat.min_eq_left (hgiven.resolve_left nofun)]
    have hfound := run_callType hbuiltin.1 hroutine hfits htype
    rwa [hlength] at hfound
  | _ => cases hcall

end Analysis

/-- What an analysis of the tree finds of the calls of declared routines, and what the bag has of
that. -/
structure ChecksCalls (catalogue : Catalogue) (tree : Program) (s : AnalysisState) (bag : Bag) :
    Prop where
  /-- The walk is through the positions, in order. -/
  steps : tree.positions.map Position.action = tree.toNode.script
  /-- A call of a routine that is declared in front of it, and not of a built-in one, is checked
  against its last declaration; what is in an assignment whose target is refused is passed over. -/
  calls : ∀ position ∈ tree.positions, ∀ call routine, position.action.call? = some call →
    lastRoutine? position.before call.name = some routine → call.fits routine = true →
    call.isBuiltin catalogue = false →
    call.isStatement = true ∨ ¬ Lexicon.IsRefused position.before →
    ∃ here next, position.Passes catalogue here next ∧
      next.findings.toList = here.findings.toList ++ call.arityFound routine ∧
      bag.ShowsBehind here (call.arityFound routine) ∧
      ((∃ d ∈ (call.arityFound routine).map LocatedFinding.diagnostic,
        d.isError = true ∧ d.isArgumentCount = true) ↔ call.arguments ≠ routine.parameters) ∧
      next.findings.toList <+: s.findings.toList

namespace Analysis
variable {catalogue : Catalogue} {p : Program} {s : AnalysisState} {bag : Bag} {position : Position}
  {call : WrittenCall} {front : List Position} {around : List Surrounding}
  {here next : AnalysisState}

/-- Where a call is performed, the types of its arguments are held. -/
theorem run_of_call? (hmem : position ∈ p.positions) (ht : p.isTiered = true)
    (h : Passage catalogue front position around here next)
    (hcall : position.action.call? = some call)
    (hactive : call.isStatement = true ∨ ¬ Lexicon.IsRefused position.before) :
    ∃ types held, (call.isStatement = true ∨ call.arguments ≤ types.length) ∧
      StateT.run (position.action.effect catalogue types) here = .ok (held, next) := by
  cases haction : position.action with
  | invoke name given line =>
    rw [haction] at hcall
    cases hcall
    have hperforms := h.performs
    rw [haction] at hperforms
    obtain ⟨types, held, hrun⟩ := hperforms.resolve_right fun hpassed => by
      rcases hpassed.2 with hpassed | hpassed <;> cases hpassed
    exact ⟨types, held, .inl rfl, hrun⟩
  | call name given line =>
    rw [haction] at hcall
    cases hcall
    obtain ⟨types, held, hreaches, hrun⟩ :=
      h.performed (p.admitsAll_before ht hmem) (hactive.resolve_left nofun)
    obtain ⟨-, positions, rest, hpositions, hbefore, -⟩ := p.route_positions.exists_of_mem hmem
    have hscript : p.toNode.script =
        position.before ++ .call name given line :: rest.map Position.action := by
      rw [← p.map_action_positions, hpositions, hbefore, List.map_append, List.map_cons, haction,
        List.nil_append]
    obtain ⟨outer, arguments, houter, hcount⟩ :=
      Node.isSupplied_script p.toNode _ name given line _ hscript
    rw [houter] at hreaches
    have hheld := length_le_of_reaches hreaches rfl
    rw [hcount] at hheld
    exact ⟨types, held, .inr hheld, haction ▸ hrun⟩
  | _ =>
    rw [haction] at hcall
    cases hcall

/-- **The calls of declared routines are checked in every program** whose declarations stand in
front of its statements, and whose analysis comes to its end. -/
theorem checksCalls_of_run (ht : p.isTiered = true) (h : run catalogue p = .ok s)
    (hbag : bag.ShowsFindings s) : ChecksCalls catalogue p s bag := by
  refine ⟨p.map_action_positions,
    fun position hmem call routine hcall hroutine hfits hbuiltin hactive => ?_⟩
  obtain ⟨front, around, here, next, hpassage, hkept⟩ := exists_passage_of_run h hmem
  obtain ⟨types, held, hgiven, hrun⟩ := run_of_call? hmem ht hpassage hcall hactive
  rw [← hpassage.find?_routines] at hroutine
  have hnext := run_effect_of_call? hcall hbuiltin hroutine hfits hgiven hrun
  have hfound : next.findings.toList = here.findings.toList ++ call.arityFound routine := by
    rw [hnext, AnalysisState.findings_reporting]
  exact ⟨here, next, hpassage.passes, hfound, hbag.behind hfound hkept,
    call.error_arityFound_iff routine, hkept⟩

end Analysis

namespace Outcome

/-- **The calls of declared routines are checked in every source**: with any built-in routines that
can be loaded, its check gives an outcome, and its bag has of each call of a declared routine that
is not hidden by a built-in one whether its arguments are as many as the parameters of the last
declaration. -/
theorem ofSource_checksCalls {loader : Loader} (h : loader.Reachable) (name source : String) :
    ∃ outcome tree s, ofSource loader.catalogue name source = .ok outcome ∧
      outcome.program = some tree ∧ outcome.table = some s.table ∧
      outcome.bag.entries = (Lexed.ofSource source).diagnostics ++
        (Grammar.parse (Lexed.ofSource source).tokens).faults.map GrammarFault.diagnostic ++
          s.findings.toList.map LocatedFinding.diagnostic ∧
      ChecksCalls loader.catalogue tree s outcome.bag := by
  obtain ⟨outcome, s, hcheck, hrun, htree, htable, hentries, hbag⟩ :=
    exists_findings_of_source h name source
  exact ⟨outcome, _, s, hcheck, htree, htable, hentries,
    Analysis.checksCalls_of_run (Grammar.isTiered_parse _) hrun hbag⟩

/-- The second declaration counts, in its own body and behind it. -/
def redeclaredCalls : String :=
  "procedure p; begin p(1) end; procedure P(a: real); begin p end; begin p(2) end."

theorem ofSource_checksCalls_redeclared :
    ∃ outcome tree s,
      ofSource (Loader.loadStandard {}).catalogue "redeclared" redeclaredCalls = .ok outcome ∧
      outcome.program = some tree ∧ outcome.table = some s.table ∧
      outcome.bag.entries = (Lexed.ofSource redeclaredCalls).diagnostics ++
        (Grammar.parse (Lexed.ofSource redeclaredCalls).tokens).faults.map
          GrammarFault.diagnostic ++ s.findings.toList.map LocatedFinding.diagnostic ∧
      ChecksCalls (Loader.loadStandard {}).catalogue tree s outcome.bag :=
  ofSource_checksCalls (.standard .empty) _ _

/-- The calls on the lines 2 to 4 are of names of built-in routines, and what stands on the lines 6
and 8 is passed over. -/
def hiddenCalls : String :=
  "function inc(a, b, d: real): real; begin end; function abs(x, y: real): real; begin end; " ++
    "const c = 1; begin\ninc(1, 2, 3);\nwrite(abs(1, 2));\nabs;\nc :=\ninc(1);\nz :=\ninc(1) end."

/-- The calls on the lines 2 and 3, which are in error, have as many arguments as the routines of
the program have parameters, and those on the lines 4, 6 and 8, which are not, have not. -/
theorem ofSource_hiddenCalls :
    (ofSource (Loader.loadStandard {}).catalogue "" hiddenCalls).toOption.map (fun outcome =>
      (outcome.program.map fun tree => tree.positions.filterMap fun position =>
        position.action.call?.bind fun call =>
          (lastRoutine? position.before call.name).map fun routine =>
            (call.line, call.arguments, routine.parameters),
        (outcome.bag.entries.filter (·.severity = .error)).map Diagnostic.line)) =
      some (some [(2, 3, 3), (3, 2, 2), (4, 0, 2), (6, 1, 3), (8, 1, 3)], [2, 3, 5, 7]) := by
  decide +kernel

end Outcome
end PascalCheck
