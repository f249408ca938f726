import PascalCheck.Proofs.Scope.Requests
import PascalCheck.Proofs.Walk.Passage
import PascalCheck.Proofs.Walk.Scoping

/-! # Scopes mirror the nesting of the program

Wherever a walk comes to, the open scopes are the outermost one and one for each routine and each
block around the place, in the order in which these are nested (`Surrounding.scopeNames`); and the
record of openings, closings and declarations is one that leads to just these
(`ScopeEvent.openBehind?`).  That is so for every tree, since each step that opens a scope stands
in front of what it encloses, and the one that closes it behind (`Passage.mirrors`). -/
namespace PascalCheck

namespace Action

/-- The step opens a scope. -/
def opensScope : Action → Bool
  | openBlock _ | enterRoutine _ => true
  | _ => false

/-- The step closes a scope. -/
def closesScope : Action → Bool
  | closeBlock | leaveRoutine => true
  | _ => false

/-- The steps that may be passed over open and close no scope. -/
theorem scopes_of_isTyping_or_isStore {action : Action}
    (h : action.isTyping = true ∨ action.isStore = true) :
    action.opensScope = false ∧ action.closesScope = false := by
  rcases h with h | h
  · cases action <;> first | exact ⟨rfl, rfl⟩ | cases h
  · cases action <;> first | exact ⟨rfl, rfl⟩ | cases h

end Action

/-- How many scopes have been opened at a place, the outermost one included. -/
def scopesOpened (front : List Action) : Nat :=
  1 + front.countP Action.opensScope

theorem scopesOpened_concat (front : List Action) (action : Action) :
    scopesOpened (front ++ [action]) =
      scopesOpened front + if action.opensScope then 1 else 0 := by
  rw [scopesOpened, List.countP_append, List.countP_singleton, ← Nat.add_assoc]
  rfl

namespace Surrounding

/-- The name of the scope of a routine or block; that of a routine without a name is made of the
number of scopes opened. -/
def scopeName? (surrounding : Surrounding) : Option String :=
  match surrounding.enclosure with
  | .routine name =>
    some (if Text.lower name = "" then s!"scope_{scopesOpened surrounding.front}"
      else Text.lower name)
  | .block line => some s!"block_line_{line}"
  | .loop _ | .assignment => none

/-- The names of the scopes around a place, innermost first. -/
def scopeNames (around : List Surrounding) : List String :=
  around.filterMap scopeName? ++ ["global"]

theorem scopeNames_cons (surrounding : Surrounding) (around : List Surrounding) :
    scopeNames (surrounding :: around) =
      surrounding.scopeName?.toList ++ scopeNames around := by
  cases h : surrounding.scopeName? <;> simp [scopeNames, h]

theorem scopeNames_eq_cons (around : List Surrounding) :
    ∃ name outer, scopeNames around = name :: outer :=
  List.exists_cons_of_ne_nil (List.append_ne_nil_of_right_ne_nil _ (List.cons_ne_nil _ _))

end Surrounding

namespace ScopeEvent

/-- The names of the open scopes, innermost first, after an event; nothing if the event cannot
happen while these are open. -/
def follow? (names : List String) : ScopeEvent → Option (List String)
  | opened scope depth => if depth = names.length + 1 then some (scope :: names) else none
  | closed scope _ current depth =>
    match names with
    | [] => none
    | innermost :: outer =>
      if scope = innermost ∧ outer.head? = some current ∧ depth = outer.length then some outer
      else none
  | declared _ _ scope _ _ => if names.head? = some scope then some names else none

/-- The names of the scopes that are open behind events, if these are well nested: each scope is
opened inside of the open ones and closed as the innermost one, and names are declared in the
innermost one. -/
def openBehind? (events : List ScopeEvent) : Option (List String) :=
  events.foldlM follow? []

theorem openBehind?_concat {events : List ScopeEvent} {names : List String}
    (h : openBehind? events = some names) (event : ScopeEvent) :
    openBehind? (events ++ [event]) = follow? names event := by
  unfold openBehind? at h ⊢
  rw [List.foldlM_append, h, Option.bind_eq_bind, Option.bind_some]
  exact bind_pure _

end ScopeEvent

namespace ScopeTable
variable {table declared : ScopeTable}

/-! ## What steps leave of the scopes -/

/-- The names of the open scopes, and how many scopes have been opened. -/
def frame (table : ScopeTable) : List String × Nat :=
  (table.scopes.map Scope.name, table.opened)

@[simp] theorem frame_update (table : ScopeTable) (name : String) (change : Symbol → Symbol) :
    (table.update name change).frame = table.frame := by
  unfold update
  split <;> rfl

theorem frame_declare? {name : String} {ty : Ty} {line : Int} {category : Category}
    (h : table.declare? name ty line category = some declared) : declared.frame = table.frame := by
  obtain ⟨-, -, hscopes, hopened⟩ := declare?_eq_some h
  unfold frame
  rw [hscopes, hopened, table.scopes_eq_cons]
  rfl

theorem frame_declareThen (table : ScopeTable) (name : String) (ty : Ty) (line : Int)
    (category : Category) {change : ScopeTable → ScopeTable}
    (hchange : ∀ t : ScopeTable, (change t).frame = t.frame) :
    (table.declareThen name ty line category change).frame = table.frame := by
  unfold declareThen
  cases hd : table.declare? name ty line category with
  | none => rfl
  | some declared => exact (hchange declared).trans (frame_declare? hd)

theorem frame_startLoop (table : ScopeTable) (name : String) :
    (table.startLoop name).frame = table.frame := by
  unfold startLoop
  split
  · rfl
  · split
    · rfl
    · split <;> simp [markInitialized, setCategory]

theorem frame_declareResult (table : ScopeTable) (routine : DeclaredRoutine) :
    (table.declareResult routine).frame = table.frame := by
  unfold declareResult
  split
  · exact table.frame_declareThen _ _ _ _ fun t => t.frame_update _ _
  · rfl

end ScopeTable

namespace Action
variable {action : Action}

/-- **A step that neither opens nor closes a scope** leaves the open ones their names. -/
theorem frame_onTable (hopens : action.opensScope = false) (hcloses : action.closesScope = false)
    (types : List Ty) (table : ScopeTable) : (action.onTable types table).frame = table.frame := by
  cases action with
  | openBlock | enterRoutine => cases hopens
  | closeBlock | leaveRoutine => cases hcloses
  | name n line | element n line | store n line => exact table.frame_update n _
  | read routine n line => exact (ScopeTable.frame_update _ n _).trans (table.frame_update n _)
  | counter n line =>
    show (if n = "" then table else table.startLoop n).frame = table.frame
    split
    · rfl
    · exact table.frame_startLoop n
  | parameter line p =>
    refine table.frame_declareThen _ _ _ _ fun t => ?_
    exact (ScopeTable.frame_update _ p.name _).trans (t.frame_update p.name _)
  | result routine => exact table.frame_declareResult routine
  | «variable» n ty => exact table.frame_declareThen _ _ _ _ fun t => rfl
  | constant n line => exact table.frame_declareThen _ _ _ _ fun t => t.frame_update n _
  | _ => rfl

end Action

namespace Marks
variable {marks later : Marks} {table : ScopeTable}

/-- What is recorded later is at most the attempt of declarations in the innermost scope. -/
def Declares (marks : Marks) (table : ScopeTable) (later : Marks) : Prop :=
  ∃ declared, later.events = marks.events ++ declared ∧
    ∀ event ∈ declared, ∃ name ty line success,
      event = ScopeEvent.declared name ty table.current.name line success

theorem declares_of_events_eq (h : later.events = marks.events) : marks.Declares table later :=
  ⟨[], h.trans (List.append_nil _).symm, nofun⟩

theorem declares_declaring (name : String) (ty : Ty) (line : Int) (category : Category) :
    marks.Declares table (marks.record (table.declaring name ty line category)) :=
  ⟨[_], rfl, List.forall_mem_singleton.mpr ⟨_, _, _, _, rfl⟩⟩

theorem events_store (name : String) (line : Int) :
    (marks.store name line).events = marks.events := by
  unfold store
  split <;> rfl

end Marks

/-- **A step that neither opens nor closes a scope** is recorded, if at all, as a declaration in the
innermost one. -/
theorem Action.declares_onMarks {action : Action} (hopens : action.opensScope = false)
    (hcloses : action.closesScope = false) (types : List Ty) (table : ScopeTable) (marks : Marks) :
    marks.Declares table (action.onMarks types table marks) := by
  cases action with
  | openBlock | enterRoutine => cases hopens
  | closeBlock | leaveRoutine => cases hcloses
  | target n line | read routine n line =>
    refine Marks.declares_of_events_eq ?_
    show (if (table.find? n).isSome then marks.store n line else marks).events = _
    split
    · exact marks.events_store n line
    · rfl
  | enterLoop n =>
    refine Marks.declares_of_events_eq ?_
    show (if Text.lower n = "" then marks else marks.protect (Text.lower n)).events = _
    split <;> rfl
  | result routine =>
    show marks.Declares table (marks.declareResult table routine)
    unfold Marks.declareResult
    split
    · exact Marks.declares_declaring _ _ _ _
    · exact Marks.declares_of_events_eq rfl
  | parameter | «variable» | constant => exact Marks.declares_declaring _ _ _ _
  | _ => exact Marks.declares_of_events_eq rfl

/-! ## The walk -/

/-- The open scopes have the names, and the record of events leads to them; so many scopes have been
opened. -/
structure Mirrors (names : List String) (opened : Nat) (table : ScopeTable)
    (events : List ScopeEvent) : Prop where
  frame : table.frame = (names, opened)
  events : ScopeEvent.openBehind? events = some names

namespace Mirrors
variable {names : List String} {opened : Nat} {table next : ScopeTable} {events : List ScopeEvent}

theorem names_eq (h : Mirrors names opened table events) : table.scopes.map Scope.name = names :=
  congrArg Prod.fst h.frame

theorem opened_eq (h : Mirrors names opened table events) : table.opened = opened :=
  congrArg Prod.snd h.frame

theorem depth_eq (h : Mirrors names opened table events) : table.depth = names.length := by
  rw [← table.length_scopes, ← h.names_eq, List.length_map]

theorem head?_eq (h : Mirrors names opened table events) :
    names.head? = some table.current.name := by
  rw [← h.names_eq, table.scopes_eq_cons]
  rfl

theorem start : Mirrors (Surrounding.scopeNames []) 1 .empty [.opened "global" 1] :=
  ⟨rfl, rfl⟩

/-- A scope is opened inside of the open ones. -/
theorem opening (h : Mirrors names opened table events) (name : String) :
    Mirrors ((if name = "" then s!"scope_{opened + 1}" else name) :: names) (opened + 1)
      (table.push name) (events ++ [table.opening name]) := by
  have hframe : (table.push name).frame =
      ((if name = "" then s!"scope_{table.opened + 1}" else name) ::
        table.scopes.map Scope.name, table.opened + 1) := rfl
  rw [h.names_eq, h.opened_eq] at hframe
  refine ⟨hframe, ?_⟩
  have hdepth : (table.push name).depth = names.length + 1 := congrArg (· + 1) h.depth_eq
  have hname : (table.push name).current.name =
      if name = "" then s!"scope_{opened + 1}" else name := by
    rw [← h.opened_eq]
    rfl
  rw [ScopeEvent.openBehind?_concat h.events, ScopeTable.opening, ScopeEvent.follow?, hdepth,
    if_pos rfl, hname]

/-- The innermost scope is closed, if it is not the last one. -/
theorem closing {name : String} (h : Mirrors (name :: names) opened table events)
    (hne : names ≠ []) : Mirrors names opened table.pop (events ++ [table.closing]) := by
  have hdepth : table.depth ≠ 1 := by
    rw [h.depth_eq, List.length_cons]
    exact fun heq => hne (List.length_eq_zero_iff.mp (Nat.succ.inj heq))
  have hnames : table.pop.scopes.map Scope.name = names := by
    rw [table.scopes_pop, if_neg hdepth, List.map_tail, h.names_eq, List.tail_cons]
  have hframe : table.pop.frame = (names, opened) :=
    Prod.ext hnames h.opened_eq
  refine ⟨hframe, ?_⟩
  have hcurrent : names.head? = some table.pop.current.name := by
    rw [← hnames, table.pop.scopes_eq_cons]
    rfl
  have hpop : table.pop.depth = names.length := by
    rw [← table.pop.length_scopes, ← hnames, List.length_map]
  have hinnermost : table.current.name = name :=
    (Option.some.inj h.head?_eq).symm
  rw [ScopeEvent.openBehind?_concat h.events, ScopeTable.closing, ScopeEvent.follow?]
  exact if_pos ⟨hinnermost, hcurrent, hpop⟩

/-- Names are declared in the innermost scope. -/
theorem declaring {marks later : Marks} (h : Mirrors names opened table marks.events)
    (hframe : next.frame = table.frame) (hdeclares : marks.Declares table later) :
    Mirrors names opened next later.events := by
  refine ⟨hframe.trans h.frame, ?_⟩
  obtain ⟨declared, hevents, hdeclared⟩ := hdeclares
  rw [hevents]
  clear hevents
  induction declared using List.reverseRecOn with
  | nil =>
    rw [List.append_nil]
    exact h.events
  | append_singleton declared event ih =>
    obtain ⟨hfront, hlast⟩ := List.forall_mem_append.mp hdeclared
    obtain ⟨name, ty, line, success, rfl⟩ := hlast event List.mem_cons_self
    rw [← List.append_assoc, ScopeEvent.openBehind?_concat (ih hfront), ScopeEvent.follow?,
      if_pos h.head?_eq]

end Mirrors

namespace Leads
variable {around next : List Surrounding} {before : List Action} {action : Action}

/-- A step that neither opens nor closes a scope enters and leaves at most a loop or an
assignment. -/
theorem scopeNames_eq (h : Leads around before action next) (hopens : action.opensScope = false)
    (hcloses : action.closesScope = false) :
    Surrounding.scopeNames next = Surrounding.scopeNames around := by
  cases h with
  | @enters enclosure henters _ =>
    rw [Surrounding.scopeNames_cons]
    cases action <;> cases henters <;> first | rfl | cases hopens
  | @leaves inner _ haround hleaves _ =>
    rw [haround, Surrounding.scopeNames_cons]
    obtain ⟨enclosure, front⟩ := inner
    cases action <;> cases enclosure <;> first | rfl | cases hleaves; done | cases hcloses
  | stays => rfl

/-- Where a scope is opened, what it belongs to is entered. -/
theorem of_opensScope (h : Leads around before action next) (hopens : action.opensScope = true) :
    ∃ enclosure, action.enters? = some enclosure ∧
      next = ⟨enclosure, before ++ [action]⟩ :: around := by
  cases h with
  | @enters enclosure henters _ => exact ⟨enclosure, henters, rfl⟩
  | leaves _ hleaves _ => cases action <;> first | cases hopens; done | cases hleaves
  | stays hinner _ => cases action <;> first | cases hopens; done | cases hinner

/-- Where a scope is closed, what it belongs to is left. -/
theorem of_closesScope (h : Leads around before action next) (hcloses : action.closesScope = true) :
    ∃ name, Surrounding.scopeNames around = name :: Surrounding.scopeNames next := by
  cases h with
  | enters henters _ => cases action <;> first | cases hcloses; done | cases henters
  | @leaves inner _ haround hleaves _ =>
    rw [haround, Surrounding.scopeNames_cons]
    obtain ⟨enclosure, front⟩ := inner
    cases enclosure with
    | routine | block => exact ⟨_, rfl⟩
    | loop | assignment => cases action <;> first | cases hcloses; done | cases hleaves
  | stays hinner _ => cases action <;> first | cases hcloses; done | cases hinner

end Leads

/-- **A walk through a position keeps the scopes in step with what stands around.** -/
theorem Passage.mirrors {catalogue : Catalogue} {front : List Position} {position : Position}
    {around : List Surrounding} {here next : AnalysisState}
    (h : Passage catalogue front position around here next)
    (hm : Mirrors (Surrounding.scopeNames position.around) (scopesOpened position.before)
      here.table here.events.toList) :
    Mirrors (Surrounding.scopeNames around) (scopesOpened (position.before ++ [position.action]))
      next.table next.events.toList := by
  obtain ⟨outer, before, action⟩ := position
  obtain ⟨types, hmarks, htable⟩ := h.effect
  have hleads := h.leads
  have hevents : next.events.toList = (action.onMarks types here.table here.marks).events :=
    congrArg Marks.events hmarks
  rw [scopesOpened_concat, hevents]
  -- A step that opens a scope enters what the scope belongs to, one that closes it leaves that; all
  -- others change neither the scopes nor the enclosures that have one.
  by_cases hopens : action.opensScope = true
  · obtain ⟨enclosure, henters, rfl⟩ := hleads.of_opensScope hopens
    have htable' : next.table = action.onTable types here.table :=
      htable.resolve_right fun hpassed =>
        Bool.false_ne_true ((Action.scopes_of_isTyping_or_isStore hpassed.2).1.symm.trans hopens)
    rw [htable', Surrounding.scopeNames_cons, if_pos hopens]
    cases action with
    | openBlock line =>
      cases henters
      have hname : s!"block_line_{line}" ≠ "" := fun h =>
        absurd (String.append_eq_empty_iff.mp h).1 (by decide)
      have hopened := hm.opening s!"block_line_{line}"
      rw [if_neg hname] at hopened
      exact hopened
    | enterRoutine routine =>
      cases henters
      have hcount := scopesOpened_concat before (.enterRoutine routine)
      rw [Surrounding.scopeName?, hcount]
      exact hm.opening routine.key
    | _ => cases hopens
  · rw [Bool.not_eq_true] at hopens
    rw [if_neg (Bool.not_eq_true _ ▸ hopens), Nat.add_zero]
    by_cases hcloses : action.closesScope = true
    · obtain ⟨name, hnames⟩ := hleads.of_closesScope hcloses
      obtain ⟨current, names, hcons⟩ := Surrounding.scopeNames_eq_cons around
      have htable' : next.table = action.onTable types here.table :=
        htable.resolve_right fun hpassed =>
          Bool.false_ne_true ((Action.scopes_of_isTyping_or_isStore hpassed.2).2.symm.trans hcloses)
      rw [hnames] at hm
      have hclosed := hm.closing (hcons ▸ List.cons_ne_nil current names)
      rw [htable']
      cases action <;> first | cases hcloses; done | exact hclosed
    · rw [Bool.not_eq_true] at hcloses
      rw [hleads.scopeNames_eq hopens hcloses]
      have hframe : next.table.frame = here.table.frame := by
        rcases htable with htable | ⟨htable, -⟩
        · rw [htable, Action.frame_onTable hopens hcloses]
        · rw [htable]
      exact hm.declaring hframe (Action.declares_onMarks hopens hcloses types here.table here.marks)

/-- The scopes are in step with what stands around the place behind the positions. -/
abbrev InStep (positions : List Position) (around : List Surrounding) (s : AnalysisState) : Prop :=
  Mirrors (Surrounding.scopeNames around) (scopesOpened (positions.map Position.action)) s.table
    s.events.toList

theorem inStep_passage {catalogue : Catalogue} (front : List Position) (position : Position)
    (around : List Surrounding) (here next : AnalysisState)
    (h : Passage catalogue front position around here next)
    (hm : InStep front position.around here) : InStep (front ++ [position]) around next := by
  have hmirrors := h.mirrors (h.before ▸ hm)
  rw [h.before] at hmirrors
  rwa [InStep, List.map_append, List.map_singleton]

/-- **Wherever a walk comes to, the scopes mirror what stands around.** -/
theorem Route.inStep {catalogue : Catalogue} {positions : List Position}
    {around : List Surrounding} {held : Held} {s : AnalysisState}
    (h : Route [] [] positions around)
    (hreaches : Analysis.Reaches catalogue (positions.map Position.action) held s) :
    InStep positions around s :=
  h.reached_induction hreaches Mirrors.start inStep_passage

end PascalCheck
