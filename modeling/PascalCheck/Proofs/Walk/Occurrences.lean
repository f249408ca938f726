import Mathlib.Data.List.Basic
import Mathlib.Data.List.Induction
import PascalCheck.Proofs.Walk.Lexicon

/-! # Where names are declared and used

What a lexicon holds can be collected from the places of the script, each with the steps in front of
it: `names` answers for all declarations, repeated ones included (`find?_names_behind`),
`references` are what the uses of names refer to (`references_behind`), and a place is passed over
behind a target that is refused, up to the end of the assignment (`skipping_behind_iff`). -/
namespace PascalCheck

namespace Lexicon
variable {β : Type} (lexicon : Lexicon)

/-- What the steps of a script give that are not passed over, each at its place. -/
def collect (f : Lexicon → Action → Option β) (script : List Action) : List β :=
  (List.range script.length).filterMap fun place =>
    let here := behind (script.take place)
    if here.skipping then none else script[place]?.bind (f here)

theorem collect_concat (f : Lexicon → Action → Option β) (script : List Action)
    (action : Action) :
    collect f (script ++ [action]) = collect f script ++
      (if (behind script).skipping then none else f (behind script) action).toList := by
  have hfront : (List.range script.length).filterMap (fun place =>
      let here := behind ((script ++ [action]).take place)
      if here.skipping then none else (script ++ [action])[place]?.bind (f here)) =
      collect f script := by
    refine List.filterMap_congr fun place hplace => ?_
    have hlt := List.mem_range.mp hplace
    rw [List.take_append_of_le_length (Nat.le_of_lt hlt), List.getElem?_append_left hlt]
  rw [collect, List.length_append, List.length_singleton, List.range_succ, List.filterMap_append,
    hfront]
  simp only [List.filterMap_cons, List.filterMap_nil, List.take_left', List.getElem?_concat_length,
    Option.bind_some]
  split <;> simp [*]

/-- All declarations of a script, also of names that are declared already. -/
def declarations (script : List Action) : List KnownName :=
  collect (fun here action => action.declared? here.routine) script

/-- What the uses of names in a script refer to, if they refer to something. -/
def referents (script : List Action) : List (Option Nat) :=
  collect (fun here action => action.mention?.map here.meaning) script

/-- How often a script uses the declaration of a number: as often as names refer to it, and once
more if it is that of a parameter. -/
def useCount (script : List Action) (number : Nat) : Nat :=
  (referents script).count (some number) +
    if (behind script).names[number]?.any (·.isParameter) then 1 else 0

/-- How often names refer to the declaration of a number, also where they are passed over. -/
def occurrences (script : List Action) (number : Nat) : Nat :=
  (List.range script.length).countP fun place =>
    (script[place]?.bind Action.mention?).any fun name =>
      (behind (script.take place)).meaning name == some number

/-- The declaration that a name refers to behind the steps: the first one in the routine, or else
the first one outside of the routines. -/
def declarationOf? (before : List Action) (name : String) : Option KnownName :=
  ((declarations before).find? (KnownName.isOf (behind before).routine (Text.lower name))).or
    ((declarations before).find? (KnownName.isOf none (Text.lower name)))

/-! ## Steps -/

theorem references_learn (action : Action) :
    (lexicon.learn action).references =
      lexicon.references ++ (action.mention?.map lexicon.meaning).toList := by
  obtain ⟨names, hnames⟩ := lexicon.declared_eq (action.declared? lexicon.routine)
  cases action with
  | name | element | read => rfl
  | parameter | result | «variable» | constant =>
    exact (congrArg references hnames).trans (List.append_nil _).symm
  | _ => exact (List.append_nil _).symm

/-- A declaration answers for its name where nothing answered before. -/
theorem find?_declare (known : KnownName) (routine : Option Nat) (key : String) :
    (lexicon.declare known).names.find? (KnownName.isOf routine key) =
      (lexicon.names ++ [known]).find? (KnownName.isOf routine key) := by
  unfold declare
  split
  next hany =>
    rw [List.find?_append, List.find?_singleton]
    split
    next his =>
      obtain ⟨rfl, rfl⟩ : known.routine = routine ∧ Text.lower known.name = key := by
        simpa [KnownName.isOf] using his
      obtain ⟨other, hother⟩ :=
        Option.isSome_iff_exists.mp (List.find?_isSome.mpr (List.any_eq_true.mp hany))
      rw [hother, Option.some_or]
    next => exact Option.or_none.symm
  next => rfl

theorem find?_learn (action : Action) (routine : Option Nat) (key : String) :
    (lexicon.learn action).names.find? (KnownName.isOf routine key) =
      (lexicon.names ++ (action.declared? lexicon.routine).toList).find?
        (KnownName.isOf routine key) := by
  rw [names_learn]
  cases action.declared? lexicon.routine with
  | none =>
    rw [Option.toList_none, List.append_nil]
    rfl
  | some known => exact lexicon.find?_declare known routine key

/-! ## Scripts -/

theorem references_behind (script : List Action) :
    (behind script).references = referents script := by
  induction script using List.reverseRecOn with
  | nil => rfl
  | append_singleton script action ih =>
    rw [behind_concat, referents, collect_concat, ← referents, ← ih, next]
    split
    · exact (List.append_nil _).symm
    · exact references_learn _ action

/-- **The first declarations answer as all declarations do.** -/
theorem find?_names_behind (script : List Action) (routine : Option Nat) (key : String) :
    (behind script).names.find? (KnownName.isOf routine key) =
      (declarations script).find? (KnownName.isOf routine key) := by
  induction script using List.reverseRecOn with
  | nil => rfl
  | append_singleton script action ih =>
    rw [behind_concat, declarations, collect_concat, ← declarations, next]
    split
    · rw [Option.toList_none, List.append_nil]
      exact ih
    · rw [find?_learn, List.find?_append, List.find?_append, ih]

/-- **What a name means is the declaration that it refers to.** -/
theorem declaration_of_meaning (before : List Action) (name : String) :
    ((behind before).meaning name).bind ((behind before).names[·]?) =
      declarationOf? before name := by
  unfold meaning declarationOf?
  rw [← find?_names_behind, ← find?_names_behind, List.find?_eq_bind_findIdx?_getElem?,
    List.find?_eq_bind_findIdx?_getElem?]
  cases hfound : (behind before).names.findIdx?
      (KnownName.isOf (behind before).routine (Text.lower name)) with
  | none => rw [Option.none_or, Option.bind_none, Option.none_or]
  | some number =>
    have hlt := (List.findIdx?_eq_some_iff_getElem.mp hfound).1
    rw [Option.some_or, Option.bind_some, List.getElem?_eq_getElem hlt, Option.some_or]

/-- A place begins to be passed over at a target that is refused. -/
theorem skipping_learn_iff (h : lexicon.skipping = false) (action : Action) :
    (lexicon.learn action).skipping = true ↔
      ∃ target line, action = .target target line ∧ lexicon.refuses target = true := by
  obtain ⟨names, hnames⟩ := lexicon.declared_eq (action.declared? lexicon.routine)
  cases action with
  | target n line => simp [learn]
  | name | element | read | openBlock | closeBlock | enterRoutine | leaveRoutine =>
    simp [learn, h]
  | _ => simp [learn, hnames, h]

/-- The steps lead into an assignment whose target is refused, and not yet to its end. -/
def IsRefused (before : List Action) : Prop :=
  ∃ front target line inside, before = front ++ .target target line :: inside ∧
    (behind front).skipping = false ∧ (behind front).refuses target = true ∧
      ∀ action ∈ inside, action.isStore = false

/-- The last step is the target, or one inside the assignment. -/
theorem isRefused_concat {before : List Action} {last : Action} :
    IsRefused (before ++ [last]) ↔
      (∃ target line, last = .target target line ∧ (behind before).skipping = false ∧
        (behind before).refuses target = true) ∨ IsRefused before ∧ last.isStore = false := by
  constructor
  · rintro ⟨front, target, line, inside, hsplit, hactive, hrefuses, hinside⟩
    rcases List.eq_nil_or_concat' inside with rfl | ⟨inner, final, rfl⟩
    · obtain ⟨rfl, hlast⟩ := List.append_inj' hsplit rfl
      exact .inl ⟨target, line, List.head_eq_of_cons_eq hlast, hactive, hrefuses⟩
    · rw [← List.cons_append, ← List.append_assoc] at hsplit
      obtain ⟨rfl, hlast⟩ := List.append_inj' hsplit rfl
      obtain rfl := List.head_eq_of_cons_eq hlast
      exact .inr ⟨⟨front, target, line, inner, rfl, hactive, hrefuses,
        fun action ha => hinside action (List.mem_append_left _ ha)⟩, hinside last (by simp)⟩
  · rintro (⟨target, line, rfl, hactive, hrefuses⟩ | ⟨hrefused, hstore⟩)
    · exact ⟨before, target, line, [], rfl, hactive, hrefuses, nofun⟩
    · obtain ⟨front, target, line, inside, rfl, hactive, hrefuses, hinside⟩ := hrefused
      refine ⟨front, target, line, inside ++ [last], by simp, hactive, hrefuses, ?_⟩
      intro action ha
      rcases List.mem_append.mp ha with ha | ha
      · exact hinside action ha
      · rw [List.mem_singleton.mp ha, hstore]

/-- **A place is passed over** behind a target that is refused, up to the end of the assignment. -/
theorem skipping_behind_iff (before : List Action) :
    (behind before).skipping = true ↔ IsRefused before := by
  induction before using List.reverseRecOn with
  | nil =>
    constructor
    · nofun
    · rintro ⟨front, target, line, inside, hsplit, -⟩
      simp at hsplit
  | append_singleton before last ih =>
    rw [behind_concat, next, isRefused_concat, ← ih]
    by_cases hs : (behind before).skipping = true
    · -- A target inside an assignment that is passed over would not count.
      simp [hs]
    · have hactive := Bool.eq_false_iff.mpr hs
      rw [if_neg hs, skipping_learn_iff _ hactive]
      simp [hactive]

end Lexicon
end PascalCheck
