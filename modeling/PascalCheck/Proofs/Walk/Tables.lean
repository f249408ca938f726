import PascalCheck.Proofs.Typing.Infers
import PascalCheck.Proofs.Walk.Looking

/-! # What the steps of a walk do to the table

Of all that a state has, the table of scopes is changed by a step in a way that depends on the step,
the types that are held and the table only (`Action.onTable`), whatever the built-in routines are
and whatever the program has declared otherwise (`moves_effect`).  And no step of a walk finds an
unused variable: those are looked for behind the walk. -/
namespace PascalCheck

namespace Finding

/-- The finding is that a variable is never used. -/
def isUnused : Finding → Bool
  | unused _ _ => true
  | _ => false

theorem isUnused_of_isOrdinary {finding : Finding} (h : finding.isOrdinary = true) :
    finding.isUnused = false := by
  cases finding <;> first | rfl | cases h

end Finding

/-- The unused variables that have been found. -/
def AnalysisState.unusedFound (s : AnalysisState) : List LocatedFinding :=
  s.findings.toList.filter (·.finding.isUnused)

theorem AnalysisState.unusedFound_reporting (s : AnalysisState) {found : List LocatedFinding}
    (h : ∀ f ∈ found, f.finding.isOrdinary = true) :
    (s.reporting found).unusedFound = s.unusedFound := by
  have hnone : found.filter (·.finding.isUnused) = [] :=
    List.filter_eq_nil_iff.mpr fun f hf =>
      Bool.eq_false_iff.mp (Finding.isUnused_of_isOrdinary (h f hf))
  simp [unusedFound, hnone]

namespace Analysis
variable {α β : Type}

/-- Every run of the step leads from a table to a value and a table that are so related, and finds
no unused variable. -/
def Moves (m : Analysis α) (R : ScopeTable → α → ScopeTable → Prop) : Prop :=
  ∀ s a s', StateT.run m s = .ok (a, s') → R s.table a s'.table ∧ s'.unusedFound = s.unusedFound

/-- The step changes the table, whatever its value. -/
def Changes (m : Analysis α) (f : ScopeTable → ScopeTable) : Prop :=
  Moves m fun t _ t' => t' = f t

/-- The step leaves the table as it is. -/
abbrev Keeps (m : Analysis α) : Prop :=
  Changes m id

namespace Moves
variable {m n : Analysis α} {f : α → Analysis β} {R : ScopeTable → α → ScopeTable → Prop}

theorem weaken {Q : ScopeTable → α → ScopeTable → Prop} (h : Moves m R)
    (hrq : ∀ t a t', R t a t' → Q t a t') : Moves m Q :=
  fun s a s' hm => ⟨hrq _ _ _ (h s a s' hm).1, (h s a s' hm).2⟩

theorem pure (a : α) : Moves (pure a) fun t b t' => b = a ∧ t' = t := by
  intro s b s' h
  cases h
  exact ⟨⟨rfl, rfl⟩, rfl⟩

theorem throw (fault : Fault) : Moves (throw fault) R := by
  intro s b s' h
  cases h

theorem bind {Q : α → ScopeTable → β → ScopeTable → Prop} {S : ScopeTable → β → ScopeTable → Prop}
    (h : Moves m R) (hf : ∀ a, Moves (f a) (Q a))
    (hs : ∀ t a t' b t'', R t a t' → Q a t' b t'' → S t b t'') : Moves (m >>= f) S := by
  intro s b s'' hb
  obtain ⟨a, s', hm, hfa⟩ := run_bind_eq_ok.mp hb
  obtain ⟨hr, hunused⟩ := h s a s' hm
  obtain ⟨hq, hunused'⟩ := hf a s' b s'' hfa
  exact ⟨hs _ _ _ _ _ hr hq, hunused'.trans hunused⟩

/-- Behind a step that leaves the table as it is. -/
theorem after {S : ScopeTable → β → ScopeTable → Prop} (h : Keeps m) (hf : ∀ a, Moves (f a) S) :
    Moves (m >>= f) S :=
  Moves.bind h hf fun _ _ _ _ _ ht hs => by
    subst ht
    exact hs

theorem ite {p : Prop} [Decidable p] (hm : Moves m R) (hn : Moves n R) :
    Moves (if p then m else n) R := by
  split
  · exact hm
  · exact hn

end Moves

/-- Two changes, one after the other. -/
theorem Changes.bind {m : Analysis α} {k : α → Analysis β} {f g : ScopeTable → ScopeTable}
    (h : Changes m f) (hk : ∀ a, Changes (k a) g) : Changes (m >>= k) fun t => g (f t) :=
  Moves.bind h hk fun _ _ _ _ _ ht ht' => by
    subst ht
    exact ht'

/-! ## Steps -/

theorem keeps_pure (a : α) : Keeps (pure a) :=
  (Moves.pure a).weaken fun _ _ _ h => h.2

theorem keeps_report (line : Int) {finding : Finding} (h : finding.isUnused = false) :
    Keeps (report line finding) := by
  intro s a s' hm
  cases hm
  refine ⟨rfl, ?_⟩
  simp [AnalysisState.unusedFound, h]

theorem changes_modify {change : AnalysisState → AnalysisState} {f : ScopeTable → ScopeTable}
    (htable : ∀ s, (change s).table = f s.table)
    (hfindings : ∀ s, (change s).findings = s.findings) : Changes (modify change) f := by
  intro s a s' hm
  cases hm
  exact ⟨htable s, by rw [AnalysisState.unusedFound, hfindings]; rfl⟩

theorem changes_changeTable (change : ScopeTable → ScopeTable) :
    Changes (changeTable change) change :=
  changes_modify (fun _ => rfl) fun _ => rfl

theorem moves_get : Moves get fun t s t' => s.table = t ∧ t' = t := by
  intro s a s' hm
  cases hm
  exact ⟨⟨rfl, rfl⟩, rfl⟩

theorem moves_symbol? (name : String) :
    Moves (symbol? name) fun t found t' => found = t.find? name ∧ t' = t := by
  intro s a s' hm
  cases hm
  exact ⟨⟨rfl, rfl⟩, rfl⟩

/-- Behind a look at what a name means. -/
theorem moves_symbol?_bind {name : String} {f : Option Symbol → Analysis β}
    {R : ScopeTable → β → ScopeTable → Prop}
    (h : ∀ found, Moves (f found) fun t b t' => found = t.find? name → R t b t') :
    Moves (symbol? name >>= f) R := by
  refine (moves_symbol? name).bind h ?_
  rintro t found t' b t'' ⟨hfound, rfl⟩ hr
  exact hr hfound

theorem keeps_routine? (name : String) : Keeps (routine? name) := by
  intro s a s' hm
  cases hm
  exact ⟨rfl, rfl⟩

/-- A step that only looks and reports leaves the table as it is. -/
theorem Looks.keeps {m : Analysis α} (h : Looks m) : Keeps m := by
  intro s a s' hm
  obtain ⟨found, rfl, hfound⟩ := h s a s' hm
  exact ⟨rfl, s.unusedFound_reporting hfound⟩

theorem keeps_reject (line : Int) {finding : Finding} (h : finding.isUnused = false) :
    Keeps (reject line finding) :=
  .after (keeps_report line h) fun _ => keeps_pure _

theorem keeps_checkNotCounter (name : String) (line : Int) : Keeps (checkNotCounter name line) :=
  .after (moves_get.weaken fun _ _ _ h => h.2) fun _ => .ite (keeps_report line rfl) (keeps_pure _)

/-- What becomes of a table by a declaration, and of whether it was possible. -/
def Declares (name : String) (ty : Ty) (line : Int) (category : Category) (t : ScopeTable)
    (declared : Bool) (t' : ScopeTable) : Prop :=
  declared = (t.declare? name ty line category).isSome ∧
    t' = (t.declare? name ty line category).getD t

theorem moves_declareSilently (name : String) (ty : Ty) (line : Int) (category : Category) :
    Moves (declareSilently name ty line category) (Declares name ty line category) := by
  intro s a s' hrun
  unfold declareSilently at hrun
  obtain ⟨_, _, hget, hrest⟩ := run_bind_eq_ok.mp hrun
  cases hget
  dsimp only at hrest
  unfold Declares
  cases hd : s.table.declare? name ty line category with
  | some table =>
    rw [hd] at hrest
    cases hrest
    exact ⟨⟨rfl, rfl⟩, rfl⟩
  | none =>
    rw [hd] at hrest
    cases hrest
    exact ⟨⟨rfl, rfl⟩, rfl⟩

theorem moves_declare (what : Declared) (name : String) (ty : Ty) (line : Int)
    (category : Category) :
    Moves (declare what name ty line category) (Declares name ty line category) := by
  refine (moves_declareSilently name ty line category).bind
    (Q := fun declared t declared' t' => declared' = declared ∧ t' = t) (fun declared => ?_) ?_
  · cases declared with
    | true => exact .pure true
    | false =>
      refine .after (moves_get.weaken fun _ _ _ h => h.2) fun s => ?_
      dsimp only
      split
      · exact .after (keeps_report line rfl) fun _ => .pure false
      · exact .pure false
  · rintro t declared t' declared' t'' h ⟨rfl, rfl⟩
    exact h

end Analysis

/-! ## Tables -/

namespace ScopeTable

/-- The table after a declaration, with a change if the declaration is possible. -/
def declareThen (table : ScopeTable) (name : String) (ty : Ty) (line : Int) (category : Category)
    (change : ScopeTable → ScopeTable) : ScopeTable :=
  ((table.declare? name ty line category).map change).getD table

/-- The table after the name of a function is declared for its result. -/
def declareResult (table : ScopeTable) (routine : DeclaredRoutine) : ScopeTable :=
  match routine.result with
  | some ty =>
    table.declareThen routine.name ty routine.line .result (·.markInitialized routine.name)
  | none => table

/-- The table when a loop starts to count with the variable. -/
def startLoop (table : ScopeTable) (name : String) : ScopeTable :=
  match table.find? name with
  | none => table
  | some symbol =>
    if symbol.category = .constant then table
    else if symbol.category = .variable then
      (table.markInitialized name).setCategory name .counter
    else table.markInitialized name

/-- What means no symbol is not changed. -/
theorem update_of_find?_eq_none {table : ScopeTable} {name : String} (h : table.find? name = none)
    (change : Symbol → Symbol) : table.update name change = table := by
  unfold update
  cases hl : table.lookup name with
  | none => rfl
  | some number =>
    have hsize : table.symbols.size ≤ number := by simpa [find?, hl] using h
    have hmodify : table.symbols.modify number change = table.symbols :=
      Array.ext_getElem? fun k => by
        rw [Array.getElem?_modify]
        split
        next hk => simp [← hk, hsize]
        next => rfl
    simp [hmodify]

end ScopeTable

namespace Action

/-- What a step that is not passed over makes of the table. -/
def onTable (types : List Ty) (table : ScopeTable) : Action → ScopeTable
  | name n _ | element n _ => table.countUse n
  | store n _ => table.markInitialized n
  | counter n _ => if n = "" then table else table.startLoop n
  | read _ n _ => (table.markInitialized n).countUse n
  | openBlock line => table.push s!"block_line_{line}"
  | enterRoutine routine => table.push routine.key
  | closeBlock | leaveRoutine => table.pop
  | parameter line p =>
    table.declareThen p.name (Ty.resolve p.typeSpec.name) (if p.line = 0 then line else p.line)
      .variable fun t => (t.markInitialized p.name).countUse p.name
  | result routine => table.declareResult routine
  | «variable» n ty => table.declareThen n.name ty n.line .variable id
  | constant n line =>
    table.declareThen n (top types) line .constant (·.markInitialized n)
  | _ => table

/-- The rest of an assignment is passed over: there is nothing to assign to. -/
def stops (table : ScopeTable) : Action → Bool
  | target n _ => (table.find? n).all fun symbol => symbol.category = .constant
  | _ => false

end Action

namespace Analysis
variable {catalogue : Catalogue}

/-- What a name means is counted as used, if it means a symbol. -/
theorem changes_symbol?_countUse {name : String} {f : Option Symbol → Analysis α}
    (hsome : ∀ symbol, Changes (f (some symbol)) (·.countUse name)) (hnone : Keeps (f none)) :
    Changes (symbol? name >>= f) (·.countUse name) := by
  refine moves_symbol?_bind fun found => ?_
  cases found with
  | some symbol => exact (hsome symbol).weaken fun _ _ _ h _ => h
  | none =>
    refine hnone.weaken fun t _ t' ht hfound => ?_
    exact ht.trans (ScopeTable.update_of_find?_eq_none hfound.symm _).symm

theorem changes_nameType (name : String) (line : Int) :
    Changes (nameType catalogue name line) (·.countUse name) := by
  refine changes_symbol?_countUse (fun symbol => ?_) ?_
  · have huse : Changes (do changeTable (·.countUse name); return symbol.ty) (·.countUse name) :=
      (changes_changeTable _).bind fun _ => keeps_pure symbol.ty
    exact .ite huse (.after (keeps_report line rfl) fun _ => huse)
  · refine .after (.after (keeps_routine? name) fun _ => keeps_pure _) fun _ => ?_
    exact .ite ((looks_callType name [] line).keeps) (keeps_reject line rfl)

theorem changes_elementType (name : String) (line : Int) :
    Changes (elementType name line) (·.countUse name) :=
  changes_symbol?_countUse
    (fun symbol => (changes_changeTable _).bind fun _ => keeps_pure symbol.ty)
    (keeps_reject line rfl)

theorem changes_storeRead (routine name : String) (line : Int) :
    Changes (storeRead routine name line) fun t => (t.markInitialized name).countUse name := by
  refine moves_symbol?_bind fun found => ?_
  cases found with
  | none =>
    refine Moves.weaken (keeps_report line rfl) fun t _ t' ht hfound => ?_
    show t' = (t.markInitialized name).countUse name
    unfold ScopeTable.markInitialized ScopeTable.countUse
    rw [ScopeTable.update_of_find?_eq_none hfound.symm,
      ScopeTable.update_of_find?_eq_none hfound.symm]
    exact ht
  | some symbol =>
    have hstore : Changes (do
        checkNotCounter name line
        changeTable (·.markInitialized name)
        changeTable (·.countUse name)) fun t => (t.markInitialized name).countUse name :=
      .after (keeps_checkNotCounter name line) fun _ =>
        (changes_changeTable _).bind fun _ => changes_changeTable _
    have hread : Changes (do
        if symbol.ty.same .boolean then report line (.readBoolean name (Text.upper routine))
        checkNotCounter name line
        changeTable (·.markInitialized name)
        changeTable (·.countUse name)) fun t => (t.markInitialized name).countUse name :=
      .ite (.after (keeps_report line rfl) fun _ => hstore) hstore
    exact hread.weaken fun _ _ _ h _ => h

/-- What a loop does to the symbol that it counts with, if that is no constant. -/
theorem changes_startCounting (name : String) (line : Int) (symbol : Symbol) :
    Changes (do
      unless symbol.ty.same .integer || symbol.ty.isError do
        report line (.counterType name symbol.ty)
      changeTable (·.markInitialized name)
      if symbol.category = .variable then changeTable (·.setCategory name .counter))
      fun t => if symbol.category = .variable then
        (t.markInitialized name).setCategory name .counter else t.markInitialized name := by
  have hcount : Changes (do
      changeTable (·.markInitialized name)
      if symbol.category = .variable then changeTable (·.setCategory name .counter))
      fun t => if symbol.category = .variable then
        (t.markInitialized name).setCategory name .counter else t.markInitialized name := by
    split
    · exact (changes_changeTable _).bind fun _ => changes_changeTable _
    · exact (changes_changeTable _).bind fun _ => keeps_pure ()
  exact .ite hcount (.after (keeps_report line rfl) fun _ => hcount)

theorem changes_checkCounter (name : String) (line : Int) :
    Changes (checkCounter name line) fun t => if name = "" then t else t.startLoop name := by
  unfold checkCounter
  by_cases hname : name = ""
  · simp only [hname, ne_eq, not_true_eq_false, if_false, if_true]
    exact keeps_pure ()
  · simp only [hname, ne_eq, not_false_eq_true, if_false, if_true]
    refine moves_symbol?_bind fun found => ?_
    cases found with
    | none =>
      refine Moves.weaken (keeps_report line rfl) fun t _ t' ht hfound => ?_
      show t' = t.startLoop name
      rw [ScopeTable.startLoop, ← hfound]
      exact ht
    | some symbol =>
      dsimp only
      by_cases hconstant : symbol.category = .constant
      · rw [if_pos hconstant]
        refine Moves.weaken (keeps_report line rfl) fun t _ t' ht hfound => ?_
        show t' = t.startLoop name
        rw [ScopeTable.startLoop, ← hfound]
        simpa [hconstant] using ht
      · rw [if_neg hconstant]
        refine (changes_startCounting name line symbol).weaken fun t _ t' ht hfound => ?_
        show t' = t.startLoop name
        rw [ScopeTable.startLoop, ← hfound]
        simpa [hconstant] using ht

/-- A declaration, and a change behind it if it is possible. -/
theorem moves_declareThen {name : String} {ty : Ty} {line : Int} {category : Category}
    {m : Analysis Bool} {k : Bool → Analysis α} {f : ScopeTable → ScopeTable} {P : α → Prop}
    (hm : Moves m (Declares name ty line category))
    (hdone : Moves (k true) fun t a t' => t' = f t ∧ P a)
    (hrefused : Moves (k false) fun t a t' => t' = t ∧ P a) :
    Moves (m >>= k) fun t a t' => t' = t.declareThen name ty line category f ∧ P a := by
  refine hm.bind (Q := fun declared t a t' => t' = (if declared then f t else t) ∧ P a)
    (fun declared => ?_) ?_
  · cases declared with
    | true => exact hdone
    | false => exact hrefused
  · rintro t declared t' a t'' ⟨rfl, rfl⟩ ⟨rfl, ha⟩
    refine ⟨?_, ha⟩
    unfold ScopeTable.declareThen
    cases t.declare? name ty line category with
    | none => rfl
    | some table => rfl

theorem changes_declareThen {name : String} {ty : Ty} {line : Int} {category : Category}
    {m : Analysis Bool} {k : Bool → Analysis α} {f : ScopeTable → ScopeTable}
    (hm : Moves m (Declares name ty line category)) (hdone : Changes (k true) f)
    (hrefused : Keeps (k false)) :
    Changes (m >>= k) fun t => t.declareThen name ty line category f :=
  Moves.weaken (moves_declareThen (P := fun _ => True) hm
    (hdone.weaken fun _ _ _ h => ⟨h, trivial⟩) (hrefused.weaken fun _ _ _ h => ⟨h, trivial⟩))
    fun _ _ _ h => h.1

theorem changes_openScope (name : String) : Changes (openScope name) (·.push name) :=
  changes_modify (fun _ => rfl) fun _ => rfl

theorem changes_closeScope : Changes closeScope (·.pop) :=
  changes_modify (fun _ => rfl) fun _ => rfl

theorem keeps_enterRoutine (routine : DeclaredRoutine) : Keeps (Analysis.enterRoutine routine) := by
  have hadd : Keeps (addRoutine routine) := changes_modify (fun _ => rfl) fun _ => rfl
  refine .after (keeps_routine? _) fun found => ?_
  split
  · exact .after (keeps_report _ rfl) fun _ => hadd
  · exact hadd

theorem changes_declareResult (routine : DeclaredRoutine) :
    Changes (declareResult routine) (·.declareResult routine) := by
  unfold declareResult ScopeTable.declareResult
  cases routine.result with
  | some ty =>
    have hdone := changes_changeTable (·.markInitialized routine.name)
    exact changes_declareThen (moves_declareSilently _ _ _ _) hdone (keeps_pure ())
  | none => exact keeps_pure ()

/-- A step that has a change, and then leaves something to hold. -/
theorem moves_hold {m : Analysis α} {f : ScopeTable → ScopeTable} (h : Changes m f)
    (types : α → List Ty) :
    Moves (do return ⟨types (← m), false⟩ : Analysis Held) fun t held t' =>
      t' = f t ∧ held.skipping = false := by
  refine Moves.bind h (fun a => Moves.pure (⟨types a, false⟩ : Held)) ?_
  rintro t a t' held t'' ht ⟨rfl, rfl⟩
  exact ⟨ht, rfl⟩

/-- The left side of an assignment decides whether the rest is passed over. -/
theorem moves_target (n : String) (line : Int) (types : List Ty) :
    Moves ((Action.target n line).effect catalogue types) fun t held t' =>
      t' = t ∧ held.skipping = (Action.target n line).stops t := by
  refine moves_symbol?_bind fun found => ?_
  cases found with
  | none =>
    refine .after (keeps_report line rfl) fun _ => (Moves.pure _).weaken ?_
    rintro t held t' ⟨rfl, rfl⟩ hfound
    exact ⟨rfl, by rw [Action.stops, ← hfound]; rfl⟩
  | some symbol =>
    refine .after (keeps_checkNotCounter n line) fun _ => ?_
    by_cases hconstant : symbol.category = .constant
    · rw [if_pos hconstant]
      refine .after (keeps_report line rfl) fun _ => (Moves.pure _).weaken ?_
      rintro t held t' ⟨rfl, rfl⟩ hfound
      exact ⟨rfl, by simp [Action.stops, ← hfound, hconstant]⟩
    · rw [if_neg hconstant]
      refine (Moves.pure _).weaken ?_
      rintro t held t' ⟨rfl, rfl⟩ hfound
      exact ⟨rfl, by simp [Action.stops, ← hfound, hconstant]⟩

/-- **A step that is not passed over** changes the table as it does, and stops an assignment where
it does. -/
theorem moves_effect (action : Action) (types : List Ty) :
    Moves (action.effect catalogue types) fun t held t' =>
      t' = action.onTable types t ∧ held.skipping = action.stops t := by
  cases action with
  | give ty => exact moves_hold (keeps_pure ty) fun ty => ty :: types
  | literal typeName => exact moves_hold (looks_literalType typeName).keeps fun ty => ty :: types
  | name n line => exact moves_hold (changes_nameType n line) fun ty => ty :: types
  | element n line => exact moves_hold (changes_elementType n line) fun ty => ty :: types.tail
  | call n arguments line =>
    exact moves_hold (looks_callType n _ line).keeps fun ty => ty :: types.drop arguments
  | binary op line =>
    exact moves_hold (looks_binaryType op _ _ line).keeps fun ty => ty :: types.drop 2
  | unary op line => exact moves_hold (looks_unaryType op _ line).keeps fun ty => ty :: types.tail
  | discard count => exact moves_hold (keeps_pure ()) fun _ => types.drop count
  | condition statement line | bound which line =>
    have hold := moves_hold (keeps_pure ()) fun _ => types.tail
    exact .ite hold (.after (keeps_report line rfl) fun _ => hold)
  | target n line => exact moves_target n line types
  | store n line =>
    have hold := moves_hold (changes_changeTable (·.markInitialized n)) fun _ => types.drop 3
    exact .ite hold (.ite (.after (keeps_report line rfl) fun _ => hold)
      (.after (keeps_report line rfl) fun _ => hold))
  | counter n line => exact moves_hold (changes_checkCounter n line) fun _ => types
  | enterLoop n =>
    have hold := moves_hold (keeps_pure ()) fun _ => types
    have hprotect : Keeps (protect (Text.lower n)) := changes_modify (fun _ => rfl) fun _ => rfl
    exact .ite (.after hprotect fun _ => hold) hold
  | leaveLoop n =>
    have h : Keeps (unprotect (Text.lower n)) := changes_modify (fun _ => rfl) fun _ => rfl
    exact moves_hold h fun _ => types
  | read routine n line => exact moves_hold (changes_storeRead routine n line) fun _ => types
  | invoke n arguments line =>
    exact moves_hold (looks_checkCall n arguments line).keeps fun _ => types
  | openBlock line => exact moves_hold (changes_openScope _) fun _ => types
  | closeBlock | leaveRoutine => exact moves_hold changes_closeScope fun _ => types
  | enterRoutine routine =>
    exact .after (keeps_enterRoutine routine) fun _ =>
      moves_hold (changes_openScope _) fun _ => types
  | parameter line p =>
    have hmark := changes_changeTable (·.markInitialized p.name)
    have hcount := changes_changeTable (·.countUse p.name)
    have hdone := hmark.bind fun _ => hcount.bind fun _ => keeps_pure ()
    have h : Changes (declareParameters line [p])
        fun t => (Action.parameter line p).onTable types t :=
      changes_declareThen (moves_declare _ _ _ _ _) hdone (keeps_pure ())
    exact moves_hold h fun _ => types
  | result routine => exact moves_hold (changes_declareResult routine) fun _ => types
  | «variable» n ty =>
    have h : Changes (declareVariables ty [n]) fun t => (Action.variable n ty).onTable types t :=
      changes_declareThen (moves_declare _ _ _ _ _) (keeps_pure ()) (keeps_pure ())
    exact moves_hold h fun _ => types
  | constant n line =>
    have hdone := changes_changeTable (·.markInitialized n)
    exact moves_declareThen (P := fun held : Held => held.skipping = false)
      (moves_declare _ _ _ _ _) (moves_hold hdone fun _ => types.tail)
      (moves_hold (keeps_pure ()) fun _ => types.tail)
  | fragment f => exact .throw _

end Analysis
end PascalCheck
