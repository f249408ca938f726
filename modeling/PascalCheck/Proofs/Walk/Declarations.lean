import Mathlib.Data.List.Induction
import PascalCheck.Proofs.Scope.History
import PascalCheck.Proofs.Walk.Mirroring
import PascalCheck.Proofs.Walk.Performance

/-! # The first declarations of names

Each declaration of a program stands in a scope: the outermost one, or that of a declaration of a
routine.  Of those of a name in a scope the first one counts (`firsts`), and each other one is
reported, unless it is that of the result of a function (`reports`).  At each point of a walk over a
program whose declarations stand in front of its statements, the symbols are the first declarations
in front of the place, and the redeclarations found are the reports of the others
(`RecordsFirst`). -/
namespace PascalCheck

/-- A declaration of a name, with the number of the routine declaration that it stands in, if
any. -/
structure NameDeclaration where
  routine : Option Nat
  /-- What a report calls it. The result of a function is not reported. -/
  what : Option Declared
  declared : SymbolDeclaration

namespace NameDeclaration

/-- The scope and the name in lower case. -/
def key (d : NameDeclaration) : Option Nat × String :=
  (d.routine, Text.lower d.declared.name)

/-- The other declaration is one of the same name in the same scope. -/
def clashes (d other : NameDeclaration) : Bool :=
  other.key == d.key

/-- Declarations behind others, each with those in front of it. -/
def inOrder (earlier : List NameDeclaration) :
    List NameDeclaration → List (List NameDeclaration × NameDeclaration)
  | [] => []
  | d :: rest => (earlier, d) :: inOrder (earlier ++ [d]) rest

/-- The first declaration of each name in each scope. -/
def firsts (ds : List NameDeclaration) : List NameDeclaration :=
  (inOrder [] ds).filterMap fun d => if d.1.any d.2.clashes then none else some d.2

/-- The report of a declaration behind others, if the name is declared by one of these. -/
def report? (earlier : List NameDeclaration) (d : NameDeclaration) : Option LocatedFinding :=
  match d.what, earlier.find? d.clashes with
  | some what, some first =>
    some ⟨.redeclared what d.declared.name d.declared.scope first.declared.ty first.declared.line,
      d.declared.line⟩
  | _, _ => none

/-- The reports of names that are declared again. -/
def reports (ds : List NameDeclaration) : List LocatedFinding :=
  (inOrder [] ds).filterMap fun d => report? d.1 d.2

theorem inOrder_concat (earlier ds : List NameDeclaration) (d : NameDeclaration) :
    inOrder earlier (ds ++ [d]) = inOrder earlier ds ++ [(earlier ++ ds, d)] := by
  induction ds generalizing earlier with
  | nil => simp [inOrder]
  | cons first rest ih => simp [inOrder, ih]

variable (ds : List NameDeclaration) (d : NameDeclaration)

theorem firsts_concat :
    firsts (ds ++ [d]) = firsts ds ++ if ds.any d.clashes then [] else [d] := by
  rw [firsts, inOrder_concat, List.nil_append, List.filterMap_append, ← firsts, List.filterMap_cons]
  cases ds.any d.clashes <;> rfl

theorem reports_concat : reports (ds ++ [d]) = reports ds ++ (report? ds d).toList := by
  rw [reports, inOrder_concat, List.nil_append, List.filterMap_append, ← reports,
    List.filterMap_cons]
  cases report? ds d <;> rfl

/-- **The first declarations answer for a name as all declarations do.** -/
theorem find?_firsts : (firsts ds).find? d.clashes = ds.find? d.clashes := by
  induction ds using List.reverseRecOn with
  | nil => rfl
  | append_singleton ds last ih =>
    rw [firsts_concat, List.find?_append, List.find?_append, ih]
    split
    next hany =>
      rw [List.find?_nil, Option.or_none, List.find?_singleton]
      split
      next hlast =>
        -- What the last one clashes with has the same key, so that it answers before.
        have hkey : d.clashes = last.clashes :=
          congrArg (fun key (other : NameDeclaration) => other.key == key)
            (beq_iff_eq.mp hlast).symm
        obtain ⟨first, hfirst⟩ :=
          Option.isSome_iff_exists.mp (List.find?_isSome.mpr (List.any_eq_true.mp hany))
        rw [hkey, hfirst, Option.some_or]
      next => exact Option.or_none.symm
    next => rfl

end NameDeclaration

open NameDeclaration

/-! ## Steps -/

namespace ScopeTable
variable (table : ScopeTable) (name : String)

/-- A change of symbols that leaves alone what they are declared with. -/
theorem map_declaration_update {change : Symbol → Symbol}
    (h : ∀ symbol, (change symbol).declaration = symbol.declaration) :
    (table.update name change).symbols.toList.map Symbol.declaration =
      table.symbols.toList.map Symbol.declaration := by
  have hserving : table.Serving (.lookup name) (table.update name change) :=
    table.serving_update name h (fun _ => rfl) rfl
  exact (map_declaration_of_serving hserving).trans (List.append_nil _)

@[simp] theorem map_declaration_markInitialized :
    (table.markInitialized name).symbols.toList.map Symbol.declaration =
      table.symbols.toList.map Symbol.declaration :=
  table.map_declaration_update name fun _ => rfl

@[simp] theorem map_declaration_countUse :
    (table.countUse name).symbols.toList.map Symbol.declaration =
      table.symbols.toList.map Symbol.declaration :=
  table.map_declaration_update name fun _ => rfl

@[simp] theorem map_declaration_setCategory (category : Category) :
    (table.setCategory name category).symbols.toList.map Symbol.declaration =
      table.symbols.toList.map Symbol.declaration :=
  table.map_declaration_update name fun _ => rfl

@[simp] theorem map_declaration_startLoop :
    (table.startLoop name).symbols.toList.map Symbol.declaration =
      table.symbols.toList.map Symbol.declaration := by
  unfold startLoop
  split
  · rfl
  · split
    · rfl
    · split <;> simp

/-- **A name is declared where the scope does not declare it.** -/
theorem map_declaration_declareThen (ty : Ty) (line : Int) (category : Category)
    {change : ScopeTable → ScopeTable}
    (hchange : ∀ t : ScopeTable, (change t).symbols.toList.map Symbol.declaration =
      t.symbols.toList.map Symbol.declaration) :
    (table.declareThen name ty line category change).symbols.toList.map Symbol.declaration =
      table.symbols.toList.map Symbol.declaration ++
        if (table.lookupCurrent name).isSome then []
        else [⟨name, ty, table.current.name, line⟩] := by
  unfold declareThen
  cases hd : table.declare? name ty line category with
  | none =>
    have hsome := Option.isSome_iff_ne_none.mpr (declare?_eq_none_iff.mp hd)
    rw [if_pos hsome, List.append_nil]
    rfl
  | some declared =>
    obtain ⟨hnone, hsymbols, -⟩ := declare?_eq_some hd
    rw [hnone]
    refine (hchange declared).trans ?_
    rw [hsymbols, Array.toList_push, List.map_append]
    rfl

theorem declareThen_of_lookupCurrent {ty : Ty} {line : Int} {category : Category}
    {change : ScopeTable → ScopeTable} (h : (table.lookupCurrent name).isSome = true) :
    table.declareThen name ty line category change = table := by
  unfold declareThen
  rw [declare?_eq_none_iff.mpr (Option.isSome_iff_ne_none.mp h)]
  rfl

end ScopeTable

/-- The region and the name in lower case. -/
def KnownName.key (known : KnownName) : Option Nat × String :=
  (known.routine, Text.lower known.name)

namespace Action

/-- What a step declares, in the scope with the name and with the types that are held. -/
def declaration? (routine : Option Nat) (scope : String) (types : List Ty) :
    Action → Option NameDeclaration
  | parameter line p =>
    some ⟨routine, some .parameter,
      ⟨p.name, Ty.resolve p.typeSpec.name, scope, if p.line = 0 then line else p.line⟩⟩
  | result r => r.result.map fun ty => ⟨routine, none, ⟨r.name, ty, scope, r.line⟩⟩
  | «variable» n ty => some ⟨routine, some .variable, ⟨n.name, ty, scope, n.line⟩⟩
  | constant n line => some ⟨routine, some .constant, ⟨n, top types, scope, line⟩⟩
  | _ => none

variable (action : Action) (routine : Option Nat) (scope : String) (types : List Ty)

theorem map_key_declaration? :
    (action.declaration? routine scope types).map NameDeclaration.key =
      (action.declared? routine).map KnownName.key := by
  cases action with
  | result r =>
    show (r.result.map _).map _ = (if r.result.isSome then _ else _ : Option KnownName).map _
    cases r.result <;> rfl
  | _ => rfl

/-- What is declared belongs to the scope. -/
theorem scope_of_declaration? {action : Action} {routine : Option Nat} {scope : String}
    {types : List Ty} {d : NameDeclaration}
    (h : action.declaration? routine scope types = some d) :
    d.routine = routine ∧ d.declared.scope = scope := by
  cases action with
  | result r =>
    obtain ⟨_, -, rfl⟩ := Option.map_eq_some_iff.mp h
    exact ⟨rfl, rfl⟩
  | parameter | «variable» | constant =>
    cases h
    exact ⟨rfl, rfl⟩
  | _ => cases h

theorem isDeclaration_of_declaration? {action : Action} {routine : Option Nat} {scope : String}
    {types : List Ty} {d : NameDeclaration}
    (h : action.declaration? routine scope types = some d) : action.isDeclaration = true := by
  cases action <;> first | rfl | cases h

/-- A declaration is no part of an assignment. -/
theorem not_passed_over {action : Action} (h : action.isDeclaration = true) :
    ¬ (action.isTyping = true ∨ action.isStore = true) := by
  rintro (hpassed | hpassed) <;> cases action <;> first | cases h; done | cases hpassed

/-- The declaration that the step makes of a table, and a change of the new symbol behind it. -/
theorem onTable_of_declaration? {action : Action} {routine : Option Nat} {scope : String}
    {types : List Ty} {d : NameDeclaration}
    (h : action.declaration? routine scope types = some d) (table : ScopeTable) :
    ∃ category change, (∀ t : ScopeTable, (change t).symbols.toList.map Symbol.declaration =
        t.symbols.toList.map Symbol.declaration) ∧
      action.onTable types table =
        table.declareThen d.declared.name d.declared.ty d.declared.line category change := by
  cases action with
  | parameter line p =>
    cases h
    refine ⟨.variable, fun t => (t.markInitialized p.name).countUse p.name, fun t => ?_, rfl⟩
    rw [ScopeTable.map_declaration_countUse, ScopeTable.map_declaration_markInitialized]
  | result r =>
    obtain ⟨ty, hty, rfl⟩ := Option.map_eq_some_iff.mp h
    refine ⟨.result, (·.markInitialized r.name), fun t => t.map_declaration_markInitialized _, ?_⟩
    simp only [onTable, ScopeTable.declareResult, hty]
  | «variable» n ty =>
    cases h
    exact ⟨.variable, id, fun _ => rfl, rfl⟩
  | constant n line =>
    cases h
    exact ⟨.constant, (·.markInitialized n), fun t => t.map_declaration_markInitialized _, rfl⟩
  | _ => cases h

/-- A step that declares nothing leaves alone what symbols are declared with. -/
theorem map_declaration_onTable_of_none {action : Action} {routine : Option Nat} {scope : String}
    {types : List Ty} (h : action.declaration? routine scope types = none) (table : ScopeTable) :
    (action.onTable types table).symbols.toList.map Symbol.declaration =
      table.symbols.toList.map Symbol.declaration := by
  cases action with
  | parameter | «variable» | constant => cases h
  | result r =>
    simp only [onTable, ScopeTable.declareResult, Option.map_eq_none_iff.mp h]
  | counter n line =>
    show (if n = "" then table else table.startLoop n).symbols.toList.map Symbol.declaration = _
    split <;> simp
  | name | element | store | read => simp [onTable]
  | _ => rfl

/-- **What a step reports of redeclarations.** -/
theorem redeclared_onMarks (table : ScopeTable) (marks : Marks) :
    (action.onMarks types table marks).redeclared = marks.redeclared ++
      (action.declaration? routine scope types).elim [] fun d =>
        d.what.elim [] fun what =>
          table.redeclaring what d.declared.name d.declared.line := by
  cases action with
  | target n line | read _ n line =>
    show (if (table.find? n).isSome then marks.store n line else marks).redeclared =
      marks.redeclared ++ []
    rw [List.append_nil]
    split
    · unfold Marks.store
      split <;> rfl
    · rfl
  | enterLoop n =>
    show (if Text.lower n = "" then marks else marks.protect (Text.lower n)).redeclared =
      marks.redeclared ++ []
    rw [List.append_nil]
    split <;> rfl
  | result r =>
    show (marks.declareResult table r).redeclared =
      marks.redeclared ++ (r.result.map _).elim [] _
    unfold Marks.declareResult
    cases r.result <;> exact (List.append_nil _).symm
  | parameter | «variable» | constant => rfl
  | _ => exact (List.append_nil _).symm

variable {action routine scope types} in
theorem declaration?_eq_none_iff :
    action.declaration? routine scope types = none ↔ action.declared? routine = none := by
  have hkey := action.map_key_declaration? routine scope types
  rw [← @Option.map_eq_none_iff _ _ _ NameDeclaration.key, hkey, Option.map_eq_none_iff]

end Action

theorem Lexicon.blocks_of_admits {lexicon : Lexicon} {action : Action}
    (haction : action.isDeclaration = true) (h : lexicon.admits action = true) :
    lexicon.blocks = 0 := by
  cases action <;> first | exact beq_iff_eq.mp h | cases haction

/-! ## The walk -/

/-- The types that a walk holds behind the steps. -/
def Analysis.typesBehind (catalogue : Catalogue) (steps : List Action) : List Ty :=
  match StateT.run (performAll catalogue steps {}) {} with
  | .ok (held, _) => held.types
  | .error _ => []

theorem Analysis.Reaches.typesBehind_eq {catalogue : Catalogue} {steps : List Action} {held : Held}
    {s : AnalysisState} (h : Reaches catalogue steps held s) :
    typesBehind catalogue steps = held.types := by
  unfold typesBehind
  rw [show StateT.run (performAll catalogue steps {}) {} = .ok (held, s) from h]

/-- What is declared at the position. -/
def Position.declaration? (catalogue : Catalogue) (position : Position) : Option NameDeclaration :=
  position.action.declaration? (Lexicon.behind position.before).routine
    ((Surrounding.scopeNames position.around).headD "")
    (Analysis.typesBehind catalogue position.before)

/-- What is declared at positions, in order. -/
def declarationsAt (catalogue : Catalogue) (positions : List Position) : List NameDeclaration :=
  positions.filterMap (·.declaration? catalogue)

theorem declarationsAt_concat (catalogue : Catalogue) (front : List Position)
    (position : Position) : declarationsAt catalogue (front ++ [position]) =
      declarationsAt catalogue front ++ (position.declaration? catalogue).toList := by
  unfold declarationsAt
  rw [List.filterMap_append, List.filterMap_cons]
  cases position.declaration? catalogue <;> rfl

/-- What a walk has come to is what the declarations in front of the place make of it. -/
structure RecordsFirst (ds : List NameDeclaration) (lexicon : Lexicon) (s : AnalysisState) :
    Prop where
  known : lexicon.names.map KnownName.key = (firsts ds).map NameDeclaration.key
  symbols : s.table.symbols.toList.map Symbol.declaration =
    (firsts ds).map NameDeclaration.declared
  redeclared : s.redeclared = reports ds

namespace RecordsFirst
variable {ds : List NameDeclaration} {lexicon : Lexicon} {s : AnalysisState} {d : NameDeclaration}

/-- What the innermost scope has under a name is the first declaration that clashes. -/
theorem lookupCurrent (h : RecordsFirst ds lexicon s) (hdescribes : lexicon.Describes s.table)
    (hb : lexicon.blocks = 0) (hd : d.routine = lexicon.routine) :
    s.table.lookupCurrent d.declared.name = (firsts ds).findIdx? d.clashes := by
  have hknown : lexicon.names.findIdx? (KnownName.isOf d.routine (Text.lower d.declared.name)) =
      (lexicon.names.map KnownName.key).findIdx? (· == d.key) := by
    rw [List.findIdx?_map]
    rfl
  rw [hdescribes.lookupCurrent hb, ← hd, hknown, h.known, List.findIdx?_map]
  rfl

theorem isSome_lookupCurrent (h : RecordsFirst ds lexicon s)
    (hdescribes : lexicon.Describes s.table) (hb : lexicon.blocks = 0)
    (hd : d.routine = lexicon.routine) :
    (s.table.lookupCurrent d.declared.name).isSome = ds.any d.clashes := by
  rw [h.lookupCurrent hdescribes hb hd, List.findIdx?_isSome, ← List.isSome_find?, find?_firsts,
    List.isSome_find?]

theorem findCurrent? (h : RecordsFirst ds lexicon s) (hdescribes : lexicon.Describes s.table)
    (hb : lexicon.blocks = 0) (hd : d.routine = lexicon.routine) :
    (s.table.findCurrent? d.declared.name).map Symbol.declaration =
      (ds.find? d.clashes).map NameDeclaration.declared := by
  rw [ScopeTable.findCurrent?, h.lookupCurrent hdescribes hb hd, ← find?_firsts,
    List.find?_eq_bind_findIdx?_getElem?]
  cases (firsts ds).findIdx? d.clashes with
  | none => rfl
  | some number =>
    have hnumber := congrArg (·[number]?) h.symbols
    rwa [List.getElem?_map, List.getElem?_map, Array.getElem?_toList] at hnumber

/-- The report of a redeclaration names what the table has under the name. -/
theorem toList_report? (h : RecordsFirst ds lexicon s) (hdescribes : lexicon.Describes s.table)
    (hb : lexicon.blocks = 0) (hd : d.routine = lexicon.routine)
    (hscope : d.declared.scope = s.table.current.name) :
    (report? ds d).toList = d.what.elim [] fun what =>
      s.table.redeclaring what d.declared.name d.declared.line := by
  have hredeclaring : ∀ what, s.table.redeclaring what d.declared.name d.declared.line =
      (((s.table.findCurrent? d.declared.name).map Symbol.declaration).map fun first =>
        LocatedFinding.mk (.redeclared what d.declared.name s.table.current.name first.ty
          first.line) d.declared.line).toList := fun what => by
    rw [Option.map_map]
    rfl
  unfold report?
  cases d.what with
  | none => rfl
  | some what =>
    rw [Option.elim_some, hredeclaring, h.findCurrent? hdescribes hb hd, ← hscope]
    cases ds.find? d.clashes <;> rfl

variable {next : AnalysisState} {action : Action} {types : List Ty}

/-- A step that declares nothing, or is passed over. -/
theorem keep (h : RecordsFirst ds lexicon s) {other : Lexicon}
    (hnames : other.names = lexicon.names)
    (htable : next.table.symbols.toList.map Symbol.declaration =
      s.table.symbols.toList.map Symbol.declaration)
    (hmarks : next.redeclared = s.redeclared) : RecordsFirst ds other next :=
  ⟨(congrArg _ hnames).trans h.known, htable.trans h.symbols, hmarks.trans h.redeclared⟩

/-- **A step that declares a name** adds a symbol if it is the first one to declare it in the scope,
and a report if not. -/
theorem declare (h : RecordsFirst ds lexicon s) (hdescribes : lexicon.Describes s.table)
    (hb : lexicon.blocks = 0)
    (hd : action.declaration? lexicon.routine s.table.current.name types = some d)
    (htable : next.table = action.onTable types s.table)
    (hmarks : next.marks = action.onMarks types s.table s.marks) :
    RecordsFirst (ds ++ [d]) (lexicon.learn action) next := by
  obtain ⟨hroutine, hscope⟩ := Action.scope_of_declaration? hd
  obtain ⟨category, change, hchange, honTable⟩ := Action.onTable_of_declaration? hd s.table
  have hsome := h.isSome_lookupCurrent hdescribes hb hroutine
  refine ⟨?_, ?_, ?_⟩
  · have hkey := action.map_key_declaration? lexicon.routine s.table.current.name types
    rw [hd] at hkey
    obtain ⟨known, hdeclared, hknown⟩ := Option.map_eq_some_iff.mp hkey.symm
    obtain ⟨hregion, hname⟩ := Prod.mk.inj hknown
    rw [hdescribes.lookupCurrent hb, List.findIdx?_isSome, ← hroutine, ← hregion, ← hname] at hsome
    rw [lexicon.names_learn, hdeclared, Option.elim_some, Lexicon.declare, hsome, firsts_concat]
    split
    · rw [List.append_nil]
      exact h.known
    · rw [Lexicon.extend, List.map_append, List.map_append, h.known, List.map_singleton, hknown]
      rfl
  · rw [htable, honTable, ScopeTable.map_declaration_declareThen _ _ _ _ _ hchange, h.symbols,
      hsome, firsts_concat, List.map_append, ← hscope]
    split <;> rfl
  · have hreported : next.redeclared = (action.onMarks types s.table s.marks).redeclared :=
      congrArg Marks.redeclared hmarks
    rw [hreported, action.redeclared_onMarks lexicon.routine s.table.current.name types, hd,
      reports_concat, h.toList_report? hdescribes hb hroutine hscope, ← h.redeclared]
    rfl

end RecordsFirst

namespace Passage
open Analysis
variable {catalogue : Catalogue} {front : List Position} {position : Position}
  {around : List Surrounding} {here next : AnalysisState}

/-- **A walk makes the declaration of a position**, in the scope around it. -/
theorem declares (h : Passage catalogue front position around here next)
    (hadmits : ({} : Lexicon).admitsAll (position.before ++ [position.action]) = true)
    {d : NameDeclaration} (hd : position.declaration? catalogue = some d) :
    (Lexicon.behind position.before).blocks = 0 ∧
      (Lexicon.behind position.before).skipping = false ∧
      ∃ types held, position.action.declaration? (Lexicon.behind position.before).routine
          here.table.current.name types = some d ∧
        StateT.run (position.action.effect catalogue types) here = .ok (held, next) := by
  rw [Lexicon.admitsAll_append, Bool.and_eq_true] at hadmits
  have haction := Action.isDeclaration_of_declaration? hd
  obtain ⟨types, held, hreaches, hrun⟩ := h.performed_of_free (Action.not_passed_over haction)
  have hscopes : InStep front position.around here := h.induction Mirrors.start inStep_passage
  have hscope : (Surrounding.scopeNames position.around).headD "" = here.table.current.name := by
    rw [List.headD_eq_head?_getD, hscopes.head?_eq]
    rfl
  have hskipping := (describes_of_reaches hadmits.1 hreaches).2.1
  refine ⟨Lexicon.blocks_of_admits haction (Bool.and_eq_true_iff.mp hadmits.2).1, hskipping.symm,
    types, held, ?_, hrun⟩
  rw [← hscope, ← hd, Position.declaration?, hreaches.typesBehind_eq]

/-- **A walk through a position** adds what is declared there. -/
theorem recordsFirst (h : Passage catalogue front position around here next)
    (hadmits : ({} : Lexicon).admitsAll (position.before ++ [position.action]) = true)
    (hl : RecordsFirst (declarationsAt catalogue front) (Lexicon.behind position.before) here) :
    RecordsFirst (declarationsAt catalogue (front ++ [position]))
      (Lexicon.behind (position.before ++ [position.action])) next := by
  rw [declarationsAt_concat, Lexicon.behind_concat]
  cases hd : position.declaration? catalogue with
  | none =>
    obtain ⟨types, hmarks, htable⟩ := h.effect
    have hdeclared := Action.declaration?_eq_none_iff.mp hd
    have hnone : position.action.declaration? (Lexicon.behind position.before).routine "" types =
        none :=
      Action.declaration?_eq_none_iff.mpr hdeclared
    rw [Option.toList_none, List.append_nil]
    refine hl.keep ?_ ?_ ?_
    · unfold Lexicon.next
      split
      · rfl
      · rw [Lexicon.names_learn, hdeclared, Option.elim_none]
    · rcases htable with htable | ⟨htable, -⟩
      · rw [htable, Action.map_declaration_onTable_of_none hnone]
      · rw [htable]
    · have hreported : next.redeclared =
          (position.action.onMarks types here.table here.marks).redeclared :=
        congrArg Marks.redeclared hmarks
      rw [hreported, position.action.redeclared_onMarks _ "" types, hnone]
      exact List.append_nil _
  | some d =>
    obtain ⟨hblocks, hactive, types, held, hdeclaration, hrun⟩ := h.declares hadmits hd
    obtain ⟨⟨htable, -⟩, -⟩ := moves_effect position.action types here held next hrun
    rw [Lexicon.next_of_active hactive]
    rw [Lexicon.admitsAll_append, Bool.and_eq_true] at hadmits
    exact hl.declare (h.describes hadmits.1) hblocks hdeclaration htable
      (marks_effect position.action types here held next hrun).1

end Passage

/-- **Wherever a walk comes to, the symbols are the first declarations** in front of the place, and
the reports of redeclarations are those of the others. -/
theorem Route.recordsFirst {catalogue : Catalogue} {positions : List Position}
    {around : List Surrounding} {held : Held} {s : AnalysisState}
    (h : Route [] [] positions around)
    (hadmits : ({} : Lexicon).admitsAll (positions.map Position.action) = true)
    (hreaches : Analysis.Reaches catalogue (positions.map Position.action) held s) :
    RecordsFirst (declarationsAt catalogue positions)
      (Lexicon.behind (positions.map Position.action)) s := by
  refine h.reached_induction (I := fun positions _ s =>
    ({} : Lexicon).admitsAll (positions.map Position.action) = true →
      RecordsFirst (declarationsAt catalogue positions)
        (Lexicon.behind (positions.map Position.action)) s)
    hreaches (fun _ => ⟨rfl, rfl, rfl⟩) ?_ hadmits
  intro front position around here next hpassage ih hadmits
  rw [List.map_append, List.map_singleton] at hadmits ⊢
  rw [Lexicon.admitsAll_append, Bool.and_eq_true] at hadmits
  rw [← hpassage.before]
  refine hpassage.recordsFirst ?_ ?_
  · rw [Lexicon.admitsAll_append, hpassage.before, Bool.and_eq_true]
    exact hadmits
  · rw [hpassage.before]
    exact ih hadmits.1

/-! ## One declaration -/

namespace Analysis

theorem findings_declareSilently {name : String} {ty : Ty} {line : Int} {category : Category}
    {declared : Bool} {s s' : AnalysisState}
    (h : StateT.run (declareSilently name ty line category) s = .ok (declared, s')) :
    s'.findings = s.findings := by
  obtain ⟨_, _, hget, h⟩ := run_bind_eq_ok.mp h
  cases hget
  dsimp only at h
  split at h <;> cases h <;> rfl

theorem findings_declare {what : Declared} {name : String} {ty : Ty} {line : Int}
    {category : Category} {declared : Bool} {s s' : AnalysisState}
    (h : StateT.run (declare what name ty line category) s = .ok (declared, s')) :
    s'.findings.toList = s.findings.toList ++ s.table.redeclaring what name line := by
  obtain ⟨there, hsilently, rfl⟩ := run_declare h
  rw [AnalysisState.findings_reporting, findings_declareSilently hsilently]

/-- **A declaration finds at most that its name is declared already.** -/
theorem findings_of_declaration? {catalogue : Catalogue} {action : Action} {routine : Option Nat}
    {scope : String} {types : List Ty} {held : Held} {s s' : AnalysisState} {d : NameDeclaration}
    (hd : action.declaration? routine scope types = some d)
    (h : StateT.run (action.effect catalogue types) s = .ok (held, s')) :
    s'.findings.toList = s.findings.toList ++
      d.what.elim [] fun what => s.table.redeclaring what d.declared.name d.declared.line := by
  cases action with
  | parameter line p =>
    cases hd
    obtain ⟨_, there, hparameter, h⟩ := run_bind_eq_ok.mp h
    cases h
    obtain ⟨declared, _, hdeclare, hparameter⟩ := run_bind_eq_ok.mp hparameter
    rw [Option.elim_some, ← findings_declare hdeclare]
    cases declared <;> cases hparameter <;> rfl
  | result r =>
    obtain ⟨ty, hty, rfl⟩ := Option.map_eq_some_iff.mp hd
    obtain ⟨_, there, hresult, h⟩ := run_bind_eq_ok.mp h
    cases h
    unfold declareResult at hresult
    rw [hty] at hresult
    obtain ⟨declared, _, hsilently, hresult⟩ := run_bind_eq_ok.mp hresult
    rw [Option.elim_none, List.append_nil, ← findings_declareSilently hsilently]
    cases declared <;> cases hresult <;> rfl
  | «variable» n ty =>
    cases hd
    obtain ⟨_, there, hvariable, h⟩ := run_bind_eq_ok.mp h
    cases h
    obtain ⟨declared, _, hdeclare, hvariable⟩ := run_bind_eq_ok.mp hvariable
    rw [Option.elim_some, ← findings_declare hdeclare]
    cases hvariable
    rfl
  | constant n line =>
    cases hd
    obtain ⟨declared, _, hdeclare, h⟩ := run_bind_eq_ok.mp h
    rw [Option.elim_some, ← findings_declare hdeclare]
    cases declared <;> cases h <;> rfl
  | _ => cases hd

end Analysis
end PascalCheck
