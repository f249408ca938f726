import PascalCheck.Proofs.Walk.NamedTargets
import PascalCheck.Proofs.Walk.Passage
import PascalCheck.Proofs.Walk.Scoping

/-! # Which counters are protected

A loop that counts keeps its counter from being modified in its body.  The walk has one set of names
for that, which a counter enters when its loop begins and leaves when it ends; so a name is
protected in the innermost body of a loop that counts with it, until a loop in there that counts
with it too comes to its end (`Surrounding.protects`).  Wherever a walk comes to, its set is just
the names that are so protected (`Route.guards`). -/
namespace PascalCheck

/-- The enclosure is the body of a loop that counts with the name, in lower case.  A counter that is
missing has no name to count with. -/
def Enclosure.countsWith (key : String) : Enclosure → Bool
  | loop n => key != "" && Text.lower n == key
  | _ => false

namespace Action

/-- The step is the end of a loop that counts with the name. -/
def endsLoop (key : String) : Action → Bool
  | leaveLoop n => Text.lower n == key
  | _ => false

/-- A loop begins to count, or ends. -/
def isOfLoop : Action → Bool
  | enterLoop _ | leaveLoop _ => true
  | _ => false

theorem endsLoop_of_isOfLoop {action : Action} (h : action.isOfLoop = false) (key : String) :
    action.endsLoop key = false := by
  cases action <;> first | rfl | cases h

theorem countsWith_of_isOfLoop {action : Action} {enclosure : Enclosure}
    (h : action.isOfLoop = false) (henters : action.enters? = some enclosure) (key : String) :
    enclosure.countsWith key = false := by
  cases action <;> cases henters <;> first | rfl | cases h

theorem countsWith_of_leaves {action : Action} {enclosure : Enclosure}
    (h : action.isOfLoop = false) (hleaves : action.leaves enclosure = true) (key : String) :
    enclosure.countsWith key = false := by
  cases action <;> cases enclosure <;> first | rfl | cases hleaves | cases h

end Action

namespace Surrounding

/-- The name is protected at a place with these surroundings and steps in front of it: it stands in
the body of a loop that counts with the name, and in the innermost such body no loop that counts
with it has ended in front of the place. -/
def protects (key : String) (around : List Surrounding) (before : List Action) : Bool :=
  match around.find? (·.enclosure.countsWith key) with
  | none => false
  | some body => !(before.drop body.front.length).any (Action.endsLoop key)

/-- What stands around a place begins in front of it. -/
def AreBehind (around : List Surrounding) (before : List Action) : Prop :=
  ∀ surrounding ∈ around, surrounding.front.length ≤ before.length

variable {key : String} {around : List Surrounding} {before : List Action} {action : Action}

theorem protects_cons_of_not (surrounding : Surrounding)
    (h : surrounding.enclosure.countsWith key = false) :
    protects key (surrounding :: around) before = protects key around before := by
  unfold protects
  rw [List.find?_cons_of_neg (by rw [h]; exact Bool.false_ne_true)]

theorem protects_entering {enclosure : Enclosure} (h : enclosure.countsWith key = true) :
    protects key (⟨enclosure, before⟩ :: around) before = true := by
  have hfound : (⟨enclosure, before⟩ :: around : List Surrounding).find?
      (·.enclosure.countsWith key) = some ⟨enclosure, before⟩ := List.find?_cons_of_pos h
  simp [protects, hfound]

theorem protects_concat (hbehind : AreBehind around before) (h : action.endsLoop key = false) :
    protects key around (before ++ [action]) = protects key around before := by
  unfold protects
  cases hbody : around.find? (·.enclosure.countsWith key) with
  | none => rfl
  | some body =>
    have hlength := hbehind body (List.mem_of_find?_eq_some hbody)
    simp [List.drop_append_of_le_length hlength, h]

theorem protects_ending (hbehind : AreBehind around before) (h : action.endsLoop key = true) :
    protects key around (before ++ [action]) = false := by
  unfold protects
  cases hbody : around.find? (·.enclosure.countsWith key) with
  | none => rfl
  | some body =>
    have hlength := hbehind body (List.mem_of_find?_eq_some hbody)
    simp [List.drop_append_of_le_length hlength, h]

end Surrounding

namespace Leads
variable {around next : List Surrounding} {before : List Action} {action : Action} {n : String}

theorem areBehind (h : Leads around before action next)
    (hbehind : Surrounding.AreBehind around before) :
    Surrounding.AreBehind next (before ++ [action]) := by
  have hlonger : Surrounding.AreBehind around (before ++ [action]) := fun surrounding hmem =>
    Nat.le_trans (hbehind surrounding hmem) (by simp)
  cases h with
  | enters => exact List.forall_mem_cons.mpr ⟨Nat.le_refl _, hlonger⟩
  | leaves haround _ _ =>
    subst haround
    exact (List.forall_mem_cons.mp hlonger).2
  | stays => exact hlonger

/-- A step that is not of a loop changes nothing of what is protected. -/
theorem protects_eq (h : Leads around before action next)
    (hbehind : Surrounding.AreBehind around before) (hloop : action.isOfLoop = false)
    (key : String) :
    Surrounding.protects key next (before ++ [action]) =
      Surrounding.protects key around before := by
  rw [← Surrounding.protects_concat hbehind (Action.endsLoop_of_isOfLoop hloop key)]
  cases h with
  | enters henters _ =>
    exact Surrounding.protects_cons_of_not _ (Action.countsWith_of_isOfLoop hloop henters key)
  | leaves haround hleaves _ =>
    subst haround
    exact (Surrounding.protects_cons_of_not _ (Action.countsWith_of_leaves hloop hleaves key)).symm
  | stays => rfl

theorem of_enterLoop (h : Leads around before (.enterLoop n) next) :
    next = ⟨.loop n, before ++ [.enterLoop n]⟩ :: around := by
  cases h with
  | enters henters _ =>
    cases henters
    rfl
  | leaves _ hleaves _ => cases hleaves
  | stays hinner _ => cases hinner

theorem of_leaveLoop (h : Leads around before (.leaveLoop n) next) :
    ∃ front, around = ⟨.loop n, front⟩ :: next := by
  cases h with
  | enters henters _ => cases henters
  | @leaves inner _ haround hleaves _ =>
    obtain ⟨enclosure, front⟩ := inner
    cases enclosure with
    | loop entered =>
      obtain rfl : n = entered := beq_iff_eq.mp hleaves
      exact ⟨front, haround⟩
    | _ => cases hleaves
  | stays hinner _ => cases hinner

end Leads

theorem Route.areBehind {positions : List Position} {around : List Surrounding}
    (h : Route [] [] positions around) :
    Surrounding.AreBehind around (positions.map Position.action) := by
  refine h.concat_induction (I := fun positions around =>
    Surrounding.AreBehind around (positions.map Position.action)) nofun ?_
  intro front position next _ hbefore hleads hbehind
  rw [List.map_append, List.map_singleton]
  rw [hbefore] at hleads
  exact hleads.areBehind hbehind

/-! ## The set of protected names -/

/-- The names are those that are protected at the place. -/
def Guards (around : List Surrounding) (before : List Action) (counters : List String) : Prop :=
  ∀ key, key ∈ counters ↔ Surrounding.protects key around before = true

namespace Marks
variable {marks : Marks}

theorem counters_store (name : String) (line : Int) :
    (marks.store name line).counters = marks.counters := by
  unfold store
  split <;> rfl

theorem counters_declareResult (table : ScopeTable) (routine : DeclaredRoutine) :
    (marks.declareResult table routine).counters = marks.counters := by
  unfold declareResult
  split <;> rfl

theorem mem_counters_protect {key other : String} :
    other ∈ (marks.protect key).counters ↔ other = key ∨ other ∈ marks.counters := by
  unfold protect
  by_cases hcontains : marks.counters.contains key = true
  · simp only [if_pos hcontains]
    refine ⟨.inr, fun h => ?_⟩
    rcases h with rfl | h
    · exact List.contains_iff_mem.mp hcontains
    · exact h
  · simp only [if_neg hcontains, List.mem_cons]

theorem mem_counters_unprotect {key other : String} :
    other ∈ (marks.unprotect key).counters ↔ other ≠ key ∧ other ∈ marks.counters := by
  simp [unprotect, and_comm]

end Marks

namespace Guards
variable {around : List Surrounding} {before : List Action} {marks : Marks} {n : String}

theorem start : Guards [] [] [] := by
  simp [Guards, Surrounding.protects]

/-- Outside of everything no name is protected. -/
theorem eq_nil {counters : List String} (h : Guards [] before counters) : counters = [] :=
  List.eq_nil_iff_forall_not_mem.mpr fun key hmem => Bool.false_ne_true ((h key).mp hmem)

/-- A loop protects its counter from where it begins to count. -/
theorem enterLoop (h : Guards around before marks.counters)
    (hbehind : Surrounding.AreBehind around before) (types : List Ty) (table : ScopeTable) :
    Guards (⟨.loop n, before ++ [.enterLoop n]⟩ :: around) (before ++ [.enterLoop n])
      ((Action.enterLoop n).onMarks types table marks).counters := by
  intro key
  show key ∈ (if Text.lower n = "" then marks else marks.protect (Text.lower n)).counters ↔ _
  by_cases hcounts : (Enclosure.loop n).countsWith key = true
  · obtain ⟨hkey, rfl⟩ : key ≠ "" ∧ Text.lower n = key := by
      simpa [Enclosure.countsWith] using hcounts
    rw [if_neg hkey, Marks.mem_counters_protect, Surrounding.protects_entering hcounts]
    exact iff_of_true (.inl rfl) rfl
  · rw [Bool.not_eq_true] at hcounts
    rw [Surrounding.protects_cons_of_not _ hcounts, Surrounding.protects_concat hbehind rfl,
      ← h key]
    split
    · rfl
    next hn =>
      have hne : key ≠ Text.lower n := by
        rintro rfl
        simp [Enclosure.countsWith, hn] at hcounts
      rw [Marks.mem_counters_protect, or_iff_right hne]

/-- At its end a loop gives its counter free, whoever else protects it. -/
theorem leaveLoop {front : List Action}
    (h : Guards (⟨.loop n, front⟩ :: around) before marks.counters)
    (hbehind : Surrounding.AreBehind around before) (types : List Ty) (table : ScopeTable) :
    Guards around (before ++ [.leaveLoop n])
      ((Action.leaveLoop n).onMarks types table marks).counters := by
  intro key
  show key ∈ (marks.unprotect (Text.lower n)).counters ↔ _
  rw [Marks.mem_counters_unprotect]
  -- The set does not count how many loops protect a name, so that an outer body that counts with
  -- the same name loses its protection, too: just what the end of a loop in front of a place tells.
  by_cases hkey : Text.lower n = key
  · have hends : (Action.leaveLoop n).endsLoop key = true := beq_iff_eq.mpr hkey
    rw [Surrounding.protects_ending hbehind hends]
    exact iff_of_false (fun hmem => hmem.1 hkey.symm) Bool.false_ne_true
  · have hcounts : (Enclosure.loop n).countsWith key = false := by
      simp [Enclosure.countsWith, hkey]
    have hends : (Action.leaveLoop n).endsLoop key = false := beq_eq_false_iff_ne.mpr hkey
    rw [Surrounding.protects_concat hbehind hends,
      ← Surrounding.protects_cons_of_not ⟨.loop n, front⟩ hcounts, ← h key]
    exact and_iff_right (Ne.symm hkey)

end Guards

theorem Action.counters_onMarks {action : Action} (h : action.isOfLoop = false) (types : List Ty)
    (table : ScopeTable) (marks : Marks) :
    (action.onMarks types table marks).counters = marks.counters := by
  cases action with
  | enterLoop | leaveLoop => cases h
  | target n line | read routine n line =>
    show (if (table.find? n).isSome then marks.store n line else marks).counters = _
    split
    · exact Marks.counters_store n line
    · rfl
  | result routine => exact Marks.counters_declareResult table routine
  | _ => rfl

/-- **A walk through a position keeps the set of protected names.** -/
theorem Passage.guards {catalogue : Catalogue} {front : List Position} {position : Position}
    {around : List Surrounding} {here next : AnalysisState}
    (h : Passage catalogue front position around here next)
    (hguards : Guards position.around position.before here.counters) :
    Guards around (position.before ++ [position.action]) next.counters := by
  obtain ⟨outer, before, action⟩ := position
  obtain ⟨types, hmarks, -⟩ := h.effect
  have hleads := h.leads
  have hbehind : Surrounding.AreBehind outer before := by
    have hroute := h.route.areBehind
    rwa [← h.before] at hroute
  have hcounters : next.counters = (action.onMarks types here.table here.marks).counters :=
    congrArg Marks.counters hmarks
  rw [hcounters]
  -- Only loops change the set, and only they change what is protected at the next place.
  by_cases hloop : action.isOfLoop = true
  · cases action with
    | enterLoop n =>
      rw [hleads.of_enterLoop]
      exact hguards.enterLoop hbehind types here.table
    | leaveLoop n =>
      obtain ⟨inner, rfl⟩ := hleads.of_leaveLoop
      exact Guards.leaveLoop hguards (List.forall_mem_cons.mp hbehind).2 types here.table
    | _ => cases hloop
  · intro key
    rw [Bool.not_eq_true] at hloop
    rw [Action.counters_onMarks hloop, hleads.protects_eq hbehind hloop]
    exact hguards key

theorem guards_passage {catalogue : Catalogue} (front : List Position) (position : Position)
    (around : List Surrounding) (here next : AnalysisState)
    (h : Passage catalogue front position around here next)
    (hguards : Guards position.around (front.map Position.action) here.counters) :
    Guards around ((front ++ [position]).map Position.action) next.counters := by
  rw [List.map_append, List.map_singleton, ← h.before]
  exact h.guards (h.before ▸ hguards)

/-- **Wherever a walk comes to, just those names are in the set that are protected there.** -/
theorem Route.guards {catalogue : Catalogue} {positions : List Position}
    {around : List Surrounding} {held : Held} {s : AnalysisState}
    (h : Route [] [] positions around)
    (hreaches : Analysis.Reaches catalogue (positions.map Position.action) held s) :
    Guards around (positions.map Position.action) s.counters :=
  h.reached_induction (I := fun positions around s =>
    Guards around (positions.map Position.action) s.counters) hreaches Guards.start guards_passage

/-- The set at a position has just the names that are protected there. -/
theorem Passage.guards_here {catalogue : Catalogue} {front : List Position} {position : Position}
    {around : List Surrounding} {here next : AnalysisState}
    (h : Passage catalogue front position around here next) :
    Guards position.around position.before here.counters := by
  obtain ⟨held, -, hhere, -⟩ := h.passes
  rw [h.before] at hhere ⊢
  exact h.route.guards hhere

/-! ## The reports -/

namespace Position

/-- The name, in lower case, is protected at the position. -/
def isProtected (position : Position) (key : String) : Bool :=
  Surrounding.protects key position.around position.before

/-- The report that belongs to the position: what is modified there means something, and is
protected. -/
def violation? (position : Position) : Option LocatedFinding :=
  match position.action.modified? with
  | none => none
  | some (n, line) =>
    if ((Lexicon.behind position.before).meaning n).isSome &&
        position.isProtected (Text.lower n) then
      some ⟨.counterModified n, line⟩
    else none

end Position

namespace Passage
variable {catalogue : Catalogue} {front : List Position} {position : Position}
  {around : List Surrounding} {here next : AnalysisState}

/-- **A modification is reported, once, where it is protected.** -/
theorem modified_eq (h : Passage catalogue front position around here next) {n : String}
    {line : Int}
    (haction : position.action.modified? = some (n, line)) :
    next.modified = here.modified ++
      if (here.table.find? n).isSome && position.isProtected (Text.lower n) then
        [⟨.counterModified n, line⟩]
      else [] := by
  obtain ⟨types, hmarks, -⟩ := h.effect
  have hmodified : next.modified =
      (if (here.table.find? n).isSome then here.marks.store n line else here.marks).modified := by
    refine (congrArg Marks.modified hmarks).trans ?_
    cases hcases : position.action <;> rw [hcases] at haction <;> cases haction <;> rfl
  have hprotected : here.marks.counters.contains (Text.lower n) =
      position.isProtected (Text.lower n) := by
    rw [Bool.eq_iff_iff, List.contains_iff_mem]
    exact h.guards_here (Text.lower n)
  rw [hmodified]
  unfold Marks.store
  rw [hprotected]
  cases (here.table.find? n).isSome <;> cases position.isProtected (Text.lower n) <;>
    first | rfl | exact (List.append_nil _).symm

/-- Nothing else is reported so. -/
theorem modified_of_none (h : Passage catalogue front position around here next)
    (haction : position.action.modified? = none) : next.modified = here.modified := by
  obtain ⟨types, hmarks, -⟩ := h.effect
  refine (congrArg Marks.modified hmarks).trans ?_
  generalize position.action = action at haction
  cases action with
  | target | read => cases haction
  | enterLoop n =>
    show (if Text.lower n = "" then here.marks else here.marks.protect (Text.lower n)).modified = _
    split <;> rfl
  | result routine =>
    show (here.marks.declareResult here.table routine).modified = _
    unfold Marks.declareResult
    split <;> rfl
  | _ => rfl

end Passage

/-- A name means something in the table where it does so in the text. -/
theorem Lexicon.Describes.isSome_find? {lexicon : Lexicon} {table : ScopeTable}
    (h : lexicon.Describes table) (name : String) :
    (table.find? name).isSome = (lexicon.meaning name).isSome := by
  rcases h.find? name with ⟨hmeaning, hfound⟩ | ⟨number, known, symbol, hmeaning, -, hfound, -⟩
  · rw [hmeaning, hfound]
    rfl
  · rw [hmeaning, hfound]
    rfl

/-- **Behind positions, just the violations among them have been reported.** -/
theorem Route.modified {catalogue : Catalogue} {positions : List Position}
    {around : List Surrounding} {held : Held} {s : AnalysisState}
    (h : Route [] [] positions around)
    (hadmits : ({} : Lexicon).admitsAll (positions.map Position.action) = true)
    (hreaches : Analysis.Reaches catalogue (positions.map Position.action) held s) :
    s.modified = positions.filterMap Position.violation? := by
  refine h.reached_induction (I := fun positions _ s =>
    ({} : Lexicon).admitsAll (positions.map Position.action) = true →
      s.modified = positions.filterMap Position.violation?) hreaches (fun _ => rfl) ?_ hadmits
  intro front position around here next hpassage ih hadmits
  rw [List.map_append, Lexicon.admitsAll_append, Bool.and_eq_true] at hadmits
  rw [List.filterMap_append, ← ih hadmits.1]
  obtain ⟨held, -, hhere, -⟩ := hpassage.passes
  rw [hpassage.before] at hhere
  have hmeaning := (Analysis.describes_of_reaches hadmits.1 hhere).1.isSome_find?
  rw [← hpassage.before] at hmeaning
  cases haction : position.action.modified? with
  | none =>
    rw [hpassage.modified_of_none haction]
    simp [Position.violation?, haction]
  | some modified =>
    rw [hpassage.modified_eq haction, hmeaning]
    simp only [List.filterMap_cons, List.filterMap_nil, Position.violation?, haction]
    generalize (((Lexicon.behind position.before).meaning modified.1).isSome &&
      position.isProtected (Text.lower modified.1)) = violated
    cases violated <;> rfl

end PascalCheck
