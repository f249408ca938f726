import PascalCheck.Proofs.Walk.Bounds
import PascalCheck.Proofs.Walk.Performance

/-! # Which declarations have a value

A symbol has a value from the first time on that something is stored into it.  The text tells what
is stored into in front of a place (`Lexicon.stores`): assignments, reading and loops store into
what a name means there, and constants, parameters and the results of functions are declared with a
value.  In the table those have one, and besides, too early, the counter of a loop that is about to
start (`Route.followsStores`). -/
namespace PascalCheck

/-! ## Tables -/

namespace ScopeTable
variable {table : ScopeTable} {name : String} {number : Nat}

/-- Something has been stored into the symbol of the number. -/
def hasValue (table : ScopeTable) (number : Nat) : Bool :=
  table.symbols[number]?.any (·.initialized)

/-- A change that has nothing to do with values. -/
theorem hasValue_update {change : Symbol → Symbol}
    (h : ∀ symbol, (change symbol).initialized = symbol.initialized) :
    (table.update name change).hasValue number = table.hasValue number := by
  unfold hasValue
  rw [getElem?_update]
  split
  · rw [Option.any_map]
    exact congrArg (table.symbols[number]?.any ·) (funext h)
  · rfl

theorem hasValue_markInitialized :
    (table.markInitialized name).hasValue number = true ↔
      table.hasValue number = true ∨
        table.lookup name = some number ∧ number < table.symbols.size := by
  unfold hasValue markInitialized
  rw [getElem?_update]
  by_cases hlookup : table.lookup name = some number
  · rw [if_pos hlookup]
    by_cases hlt : number < table.symbols.size
    · simp [hlookup, hlt]
    · simp [hlt]
  · simp [hlookup]

theorem hasValue_startLoop :
    (table.startLoop name).hasValue number = true ↔
      table.hasValue number = true ∨ table.lookup name = some number ∧
        ∃ symbol, table.find? name = some symbol ∧ symbol.category ≠ .constant := by
  unfold startLoop
  cases hfound : table.find? name with
  | none => simp
  | some symbol =>
    have hlt : table.lookup name = some number → number < table.symbols.size := by
      intro hlookup
      rw [find?, hlookup] at hfound
      exact (Array.getElem?_eq_some_iff.mp hfound).1
    have hmarked := @hasValue_markInitialized table name number
    by_cases hconstant : symbol.category = .constant
    · simp [hconstant]
    · have hcategory : ((table.markInitialized name).setCategory name .counter).hasValue number =
          (table.markInitialized name).hasValue number := hasValue_update fun _ => rfl
      have hcounts : (if symbol.category = .variable then
          (table.markInitialized name).setCategory name .counter else
            table.markInitialized name).hasValue number = (table.markInitialized name).hasValue
              number := by
        split
        · exact hcategory
        · rfl
      dsimp only
      rw [if_neg hconstant, hcounts, hmarked]
      exact or_congr_right ⟨fun h => ⟨h.1, symbol, rfl, hconstant⟩, fun h => ⟨h.1, hlt h.1⟩⟩

end ScopeTable

namespace Action

/-- The step declares no name, and neither enters nor leaves a routine. -/
def keepsNames : Action → Bool
  | parameter _ _ | result _ | «variable» _ _ | constant _ _ => false
  | enterRoutine _ | leaveRoutine => false
  | _ => true

theorem keepsNames_of_isTyping {action : Action} (h : action.isTyping = true) :
    action.keepsNames = true := by
  cases action <;> first | rfl | cases h

end Action

namespace Lexicon

/-- The number that the declaration gets, if it is the first one of its name in its region. -/
def newNumber? (lexicon : Lexicon) (known : KnownName) : Option Nat :=
  if lexicon.names.any (KnownName.isOf known.routine (Text.lower known.name)) then none
  else some lexicon.names.length

variable {lexicon : Lexicon} {table : ScopeTable} {number : Nat}

/-- What a name means is a symbol of the table. -/
theorem Describes.exists_symbol (h : lexicon.Describes table) {name : String}
    (hmeaning : lexicon.meaning name = some number) :
    ∃ known symbol, lexicon.names[number]? = some known ∧ table.find? name = some symbol ∧
      table.symbols[number]? = some symbol ∧ lexicon.Matches number known symbol := by
  rcases h.find? name with ⟨hunknown, -⟩ | ⟨other, known, symbol, hother, hknown, hfound, hmatches⟩
  · rw [hunknown] at hmeaning
    cases hmeaning
  · obtain rfl : other = number := Option.some.inj (hother.symm.trans hmeaning)
    refine ⟨known, symbol, hknown, hfound, ?_, hmatches⟩
    rw [ScopeTable.find?, h.lookup, hmeaning, Option.bind_some] at hfound
    exact hfound

/-- **A declaration gives no value but to its own symbol**, and that only if it is new. -/
theorem Describes.hasValue_declareThen (h : lexicon.Describes table) (hb : lexicon.blocks = 0)
    {known : KnownName} (hr : known.routine = lexicon.routine) {ty : Ty} {change : Symbol → Symbol}
    {stores : Bool} (hc : ∀ symbol, (change symbol).initialized = (stores || symbol.initialized)) :
    (table.declareThen known.name ty known.line known.category
        (·.update known.name change)).hasValue number = true ↔
      table.hasValue number = true ∨ stores = true ∧ lexicon.newNumber? known = some number := by
  have hlookup := congrArg Option.isSome (h.lookupCurrent hb known.name)
  rw [List.findIdx?_isSome, ← hr] at hlookup
  unfold newNumber? ScopeTable.declareThen
  cases hd : table.declare? known.name ty known.line known.category with
  | none =>
    have hsome := Option.isSome_iff_ne_none.mpr (ScopeTable.declare?_eq_none_iff.mp hd)
    rw [if_pos (hlookup.symm.trans hsome)]
    simp
  | some declared =>
    obtain ⟨hnone, hsymbols, hscopes, -⟩ := ScopeTable.declare?_eq_some hd
    rw [hnone] at hlookup
    have hfound : declared.lookup known.name = some lexicon.names.length := by
      rw [ScopeTable.lookup, hscopes, List.findSome?_cons, Scope.number?_concat hnone,
        Function.update_self, h.size]
    rw [if_neg (by simp [← hlookup])]
    show (declared.update known.name change).hasValue number = true ↔ _
    unfold ScopeTable.hasValue
    rw [ScopeTable.getElem?_update, hfound, hsymbols, Array.getElem?_push, h.size]
    by_cases hnumber : number = lexicon.names.length
    · -- Nothing had the number before.
      have hnew : table.symbols[lexicon.names.length]? = none :=
        Array.getElem?_eq_none (Nat.le_of_eq h.size)
      subst hnumber
      simp [hnew, hc]
    · simp [hnumber, Ne.symm hnumber]

/-! ## Steps -/

/-- The number of the symbol that a step stores into.  A loop stores into its counter when it
starts. -/
def stored? (lexicon : Lexicon) : Action → Option Nat
  | .store n _ | .read _ n _ => lexicon.meaning n
  | .enterLoop n => if n = "" then none else lexicon.meaning n
  | .variable _ _ => none
  | action => (action.declared? lexicon.routine).bind lexicon.newNumber?

/-- **A step gives a value to what the text says that it stores into**, unless it begins or ends
the bounds of a loop. -/
theorem Describes.hasValue_onTable (h : lexicon.Describes table) {action : Action}
    (ha : lexicon.admits action = true) (hborder : action.isBorder = false) (types : List Ty) :
    (action.onTable types table).hasValue number = true ↔
      table.hasValue number = true ∨ lexicon.stored? action = some number := by
  have hlt : ∀ n, table.lookup n = some number ∧ number < table.symbols.size ↔
      lexicon.meaning n = some number := by
    intro n
    rw [h.lookup, h.size]
    exact ⟨fun hn => hn.1, fun hn => ⟨hn, meaning_lt hn⟩⟩
  cases action with
  | name n line | element n line =>
    have huse : (table.countUse n).hasValue number = table.hasValue number :=
      ScopeTable.hasValue_update fun _ => rfl
    show (table.countUse n).hasValue number = true ↔ _
    rw [huse]
    simp [stored?, Action.declared?]
  | store n line =>
    show (table.markInitialized n).hasValue number = true ↔ _
    rw [ScopeTable.hasValue_markInitialized, hlt]
    rfl
  | read routine n line =>
    have huse : ((table.markInitialized n).countUse n).hasValue number =
        (table.markInitialized n).hasValue number := ScopeTable.hasValue_update fun _ => rfl
    show ((table.markInitialized n).countUse n).hasValue number = true ↔ _
    rw [huse, ScopeTable.hasValue_markInitialized, hlt]
    rfl
  | parameter line p =>
    let known : KnownName :=
      ⟨lexicon.routine, p.name, if p.line = 0 then line else p.line, .variable, true⟩
    have hdeclared := @Describes.hasValue_declareThen _ _ number h (by simpa [admits] using ha)
      known rfl (Ty.resolve p.typeSpec.name)
      ((fun symbol => { symbol with uses := symbol.uses + 1 }) ∘
        fun symbol => { symbol with initialized := true }) true fun _ => rfl
    simp only [← ScopeTable.update_update, true_and] at hdeclared
    exact hdeclared
  | result routine =>
    show (table.declareResult routine).hasValue number = true ↔ _
    unfold ScopeTable.declareResult
    cases hresult : routine.result with
    | none => simp [stored?, Action.declared?, hresult]
    | some ty =>
      let known : KnownName := ⟨lexicon.routine, routine.name, routine.line, .result, false⟩
      have hdeclared := @Describes.hasValue_declareThen _ _ number h (by simpa [admits] using ha)
        known rfl ty (fun symbol => { symbol with initialized := true }) true fun _ => rfl
      have hstored : lexicon.stored? (.result routine) = lexicon.newNumber? known := by
        simp [stored?, Action.declared?, hresult, known]
      rw [hstored]
      simp only [true_and] at hdeclared
      exact hdeclared
  | «variable» n ty =>
    let known : KnownName := ⟨lexicon.routine, n.name, n.line, .variable, false⟩
    have hdeclared := @Describes.hasValue_declareThen _ _ number h (by simpa [admits] using ha)
      known rfl ty id false fun _ => rfl
    simp only [ScopeTable.update_id] at hdeclared
    exact hdeclared.trans (by simp [stored?])
  | constant n line =>
    let known : KnownName := ⟨lexicon.routine, n, line, .constant, false⟩
    have hdeclared := @Describes.hasValue_declareThen _ _ number h (by simpa [admits] using ha)
      known rfl (Action.top types) (fun symbol => { symbol with initialized := true }) true
      fun _ => rfl
    simp only [true_and] at hdeclared
    exact hdeclared
  | counter | enterLoop => cases hborder
  | _ =>
    refine (or_iff_left fun hstored => ?_).symm
    cases hstored

/-! ## Scripts -/

/-- What a script stores into, by the numbers, without what is passed over. -/
def stores (script : List Action) : List Nat :=
  collect stored? script

/-- The number of the counter of the loop that is about to start behind a script. -/
def ahead? (script : List Action) : Option Nat :=
  (awaited? script).bind fun n => if n = "" then none else (behind script).meaning n

theorem mem_stores_concat {before : List Action} {action : Action} :
    number ∈ stores (before ++ [action]) ↔ number ∈ stores before ∨
      (behind before).skipping = false ∧ (behind before).stored? action = some number := by
  rw [stores, collect_concat, List.mem_append]
  refine or_congr_right ?_
  cases (behind before).skipping with
  | true => simp
  | false => simp

/-- What a script knows under a number it knows already in front of its last step, or declares
there. -/
theorem getElem?_names_learn {action : Action} {known : KnownName}
    (h : (lexicon.learn action).names[number]? = some known) :
    lexicon.names[number]? = some known ∨
      action.declared? lexicon.routine = some known ∧ lexicon.newNumber? known = some number := by
  rw [names_learn] at h
  cases hdeclared : action.declared? lexicon.routine with
  | none =>
    rw [hdeclared] at h
    exact .inl h
  | some other =>
    rw [hdeclared] at h
    change (lexicon.declare other).names[number]? = some known at h
    unfold declare at h
    split at h
    next => exact .inl h
    next hnew =>
      change (lexicon.names ++ [other])[number]? = some known at h
      rcases Nat.lt_or_ge number lexicon.names.length with hlt | hge
      · exact .inl ((List.getElem?_append_left hlt).symm.trans h)
      · have hlength := (List.getElem?_eq_some_iff.mp h).1
        simp only [List.length_append, List.length_singleton] at hlength
        obtain rfl : number = lexicon.names.length := by omega
        obtain rfl : other = known :=
          Option.some.inj (List.getElem?_concat_length.symm.trans h)
        exact .inr ⟨rfl, if_neg hnew⟩

/-- **Constants are declared with a value.** -/
theorem mem_stores_of_constant {script : List Action} {known : KnownName}
    (h : (behind script).names[number]? = some known) (hconstant : known.category = .constant) :
    number ∈ stores script := by
  induction script using List.reverseRecOn generalizing known with
  | nil => cases h
  | append_singleton before action ih =>
    rw [mem_stores_concat]
    rw [behind_concat, next] at h
    cases hskipping : (behind before).skipping with
    | true =>
      rw [if_pos hskipping] at h
      exact .inl (ih h hconstant)
    | false =>
      rw [if_neg (Bool.eq_false_iff.mp hskipping)] at h
      rcases getElem?_names_learn h with hknown | ⟨hdeclared, hnew⟩
      · exact .inl (ih hknown hconstant)
      · refine .inr ⟨rfl, ?_⟩
        cases action with
        | constant n line =>
          cases hdeclared
          exact hnew
        | parameter line p | «variable» n ty =>
          cases hdeclared
          cases hconstant
        | result routine =>
          change (if routine.result.isSome then some _ else none) = some known at hdeclared
          split at hdeclared
          · cases hdeclared
            cases hconstant
          · cases hdeclared
        | _ => cases hdeclared

theorem meaning_next {action : Action} (h : action.keepsNames = true) (name : String) :
    (lexicon.next action).meaning name = lexicon.meaning name := by
  unfold next
  split
  · rfl
  · cases action <;> first | rfl | cases h

/-- Only where its bounds begin and end does it change which loop is about to start. -/
theorem ahead?_concat {before : List Action} {action : Action} (hborder : action.isBorder = false)
    (hsuits : action.Suits (awaited? before)) : ahead? (before ++ [action]) = ahead? before := by
  unfold ahead?
  rw [awaited?_concat, Action.awaits_of_isBorder hborder, behind_concat]
  cases hawaited : awaited? before with
  | none => rfl
  | some n =>
    rw [hawaited] at hsuits
    have hmeaning : ((behind before).next action).meaning n = (behind before).meaning n := by
      refine meaning_next ?_ n
      rcases hsuits with htyping | ⟨which, line, rfl⟩ | rfl
      · exact Action.keepsNames_of_isTyping htyping
      · rfl
      · cases hborder
    simp only [Option.bind_some, hmeaning]

end Lexicon

/-! ## Walks -/

open Analysis Lexicon

/-- Behind the steps, those symbols have a value that the steps store into, and the counter of the
loop that is about to start. -/
def ScopeTable.FollowsStores (table : ScopeTable) (script : List Action) : Prop :=
  ∀ number, table.hasValue number = true ↔ number ∈ stores script ∨ ahead? script = some number

section Steps
variable {before : List Action} {table : ScopeTable} {types : List Ty}

theorem followsStores_counter (h : table.FollowsStores before)
    (hd : (behind before).Describes table) {n : String} {line : Int}
    (hsuits : (Action.counter n line).Suits (awaited? before)) :
    ((Action.counter n line).onTable types table).FollowsStores
      (before ++ [.counter n line]) := by
  have hnone : ahead? before = none := by
    rw [ahead?, Action.eq_none_of_suits hsuits]
    rfl
  have hahead : ahead? (before ++ [.counter n line]) =
      if n = "" then none else (behind before).meaning n := by
    have hmeaning : ((behind before).next (.counter n line)).meaning n =
        (behind before).meaning n := meaning_next rfl n
    rw [ahead?, awaited?_concat, behind_concat]
    simp only [Action.awaits, Option.bind_some, hmeaning]
  intro number
  rw [mem_stores_concat, hahead]
  show (if n = "" then table else table.startLoop n).hasValue number = true ↔ _
  have hstored : (behind before).stored? (.counter n line) = none := rfl
  have hhere := h number
  rw [hnone] at hhere
  rw [hstored]
  by_cases hn : n = ""
  · simpa [hn] using hhere
  · rw [if_neg hn, if_neg hn, ScopeTable.hasValue_startLoop, hhere, hd.lookup]
    simp only [reduceCtorEq, or_false, and_false]
    -- A constant has its value already.
    constructor
    · rintro (hstores | ⟨hmeaning, -⟩)
      · exact .inl hstores
      · exact .inr hmeaning
    · rintro (hstores | hmeaning)
      · exact .inl hstores
      · obtain ⟨known, symbol, hknown, hfound, -, hmatches⟩ := hd.exists_symbol hmeaning
        by_cases hconstant : symbol.category = .constant
        · exact .inl (mem_stores_of_constant hknown (hmatches.constant.mp hconstant))
        · exact .inr ⟨hmeaning, symbol, hfound, hconstant⟩

theorem followsStores_enterLoop (h : table.FollowsStores before)
    (hs : (behind before).skipping = false) {n : String}
    (hsuits : (Action.enterLoop n).Suits (awaited? before)) :
    ((Action.enterLoop n).onTable types table).FollowsStores (before ++ [.enterLoop n]) := by
  have hhere : ahead? before = (behind before).stored? (.enterLoop n) := by
    rw [ahead?, Action.eq_some_of_suits hsuits]
    rfl
  have hthere : ahead? (before ++ [.enterLoop n]) = none := by
    rw [ahead?, awaited?_concat]
    rfl
  intro number
  rw [mem_stores_concat, hthere, ← hhere]
  show table.hasValue number = true ↔ _
  simpa [hs] using h number

end Steps

namespace Passage
variable {catalogue : Catalogue} {front : List Position} {position : Position}
  {around : List Surrounding} {here next : AnalysisState}

/-- **A passage gives values to what its step stores into.** -/
theorem followsStores (h : Passage catalogue front position around here next)
    (hadmits : ({} : Lexicon).admitsAll (position.before ++ [position.action]) = true)
    (hsuits : position.action.Suits (awaited? position.before))
    (hhere : here.table.FollowsStores position.before) :
    next.table.FollowsStores (position.before ++ [position.action]) := by
  rw [admitsAll_append, Bool.and_eq_true] at hadmits
  have hadmitted : (behind position.before).admits position.action = true :=
    (Bool.and_eq_true_iff.mp hadmits.2).1
  have hdescribes := h.describes hadmits.1
  obtain ⟨⟨types, skipping⟩, held, hreaches, hrun⟩ := h.passes
  have hskipping : skipping = (behind position.before).skipping :=
    (describes_of_reaches hadmits.1 hreaches).2.1
  cases hs : (behind position.before).skipping with
  | true =>
    rw [hskipping, hs] at hrun hreaches
    rw [Action.perform, if_pos rfl] at hrun
    cases hrun
    -- What is passed over belongs to an assignment.
    have hborder : position.action.isBorder = false := by
      rw [h.before] at hreaches
      have hinside := h.route.in_assignment hreaches rfl
      rcases h.leads.in_assignment hinside with ⟨htyping, -⟩ | ⟨hstore, -⟩
      · exact Action.isBorder_of_isTyping htyping
      · exact Action.isBorder_of_isStore hstore
    intro number
    rw [mem_stores_concat, ahead?_concat hborder hsuits, hs]
    simpa using hhere number
  | false =>
    rw [hskipping, hs] at hrun
    have htable := (moves_effect position.action types here held next hrun).1.1
    rw [htable]
    cases hborder : position.action.isBorder with
    | false =>
      intro number
      rw [hdescribes.hasValue_onTable hadmitted hborder, mem_stores_concat,
        ahead?_concat hborder hsuits, hhere number, hs]
      tauto
    | true =>
      cases haction : position.action with
      | counter n line =>
        rw [haction] at hsuits
        exact followsStores_counter hhere hdescribes hsuits
      | enterLoop n =>
        rw [haction] at hsuits
        exact followsStores_enterLoop hhere hs hsuits
      | _ =>
        rw [haction] at hborder
        cases hborder

end Passage

/-- **Which symbols have a value follows from the steps**, wherever a walk comes to. -/
theorem Route.followsStores {catalogue : Catalogue} {positions : List Position}
    {around : List Surrounding} {held : Held} {s : AnalysisState} {last : Option String}
    (h : Route [] [] positions around)
    (hadmits : ({} : Lexicon).admitsAll (positions.map Position.action) = true)
    (hpaces : Paces none (positions.map Position.action) last)
    (hreaches : Reaches catalogue (positions.map Position.action) held s) :
    s.table.FollowsStores (positions.map Position.action) := by
  refine h.reached_induction (I := fun positions _ s => ∀ last,
    ({} : Lexicon).admitsAll (positions.map Position.action) = true →
    Paces none (positions.map Position.action) last →
      s.table.FollowsStores (positions.map Position.action)) hreaches ?_ ?_ last hadmits hpaces
  · intro last _ _ number
    simp [ScopeTable.hasValue, ScopeTable.empty, stores, collect, ahead?, awaited?]
  · intro front position around here next hpassage ih last hadmits hpaces
    rw [List.map_append, List.map_singleton, ← hpassage.before] at hadmits hpaces ⊢
    have hfront := hadmits
    rw [admitsAll_append, Bool.and_eq_true] at hfront
    refine hpassage.followsStores hadmits hpaces.suits ?_
    rw [hpassage.before] at hfront hpaces ⊢
    exact ih _ hfront.1 hpaces.split.1

end PascalCheck
