import PascalCheck.Proofs.Walk.Parts

/-! # Where the bounds of loops stand

A loop that counts names its counter in front of its bounds, and starts behind them.  In a script
nothing but the steps of the bounds stands in between (`Node.paces_script`), so that at each
place at most one loop is about to start (`awaited?`). -/
namespace PascalCheck

namespace Action

/-- The counter of the loop that is about to start, behind the step. -/
def awaits (awaited : Option String) : Action → Option String
  | counter n _ => some n
  | enterLoop _ => none
  | _ => awaited

/-- The step begins or ends the bounds of a loop. -/
def isBorder : Action → Bool
  | counter _ _ | enterLoop _ => true
  | _ => false

/-- What may come when a loop is about to start, or none is. -/
def Suits (action : Action) : Option String → Prop
  | none => ∀ n, action ≠ .enterLoop n
  | some n => action.isTyping = true ∨ (∃ which line, action = .bound which line) ∨
      action = .enterLoop n

theorem suits_of_isTyping {action : Action} (h : action.isTyping = true)
    (awaited : Option String) : action.Suits awaited := by
  cases awaited with
  | none =>
    rintro n rfl
    cases h
  | some n => exact .inl h

/-- The bounds of a loop begin where no other loop is about to start. -/
theorem eq_none_of_suits {n : String} {line : Int} {awaited : Option String}
    (h : (Action.counter n line).Suits awaited) : awaited = none := by
  cases awaited with
  | none => rfl
  | some other =>
    rcases h with htyping | ⟨_, _, hbound⟩ | hstart
    · cases htyping
    · cases hbound
    · cases hstart

/-- They end where the same loop is about to start. -/
theorem eq_some_of_suits {n : String} {awaited : Option String}
    (h : (Action.enterLoop n).Suits awaited) : awaited = some n := by
  cases awaited with
  | none => exact absurd rfl (h n)
  | some other =>
    rcases h with htyping | ⟨_, _, hbound⟩ | hstart
    · cases htyping
    · cases hbound
    · cases hstart
      rfl

theorem isBorder_of_isTyping {action : Action} (h : action.isTyping = true) :
    action.isBorder = false := by
  cases action <;> first | rfl | cases h

theorem isBorder_of_isStore {action : Action} (h : action.isStore = true) :
    action.isBorder = false := by
  cases action <;> first | rfl | cases h

theorem awaits_of_isBorder {action : Action} (h : action.isBorder = false)
    (awaited : Option String) : action.awaits awaited = awaited := by
  cases action <;> first | rfl | cases h

end Action

/-- The counter of the loop that is about to start behind the steps. -/
def awaited? (actions : List Action) : Option String :=
  actions.foldl Action.awaits none

theorem awaited?_concat (actions : List Action) (action : Action) :
    awaited? (actions ++ [action]) = action.awaits (awaited? actions) := by
  unfold awaited?
  rw [List.foldl_append]
  rfl

/-- The steps suit, from one counter that is awaited to another. -/
inductive Paces : Option String → List Action → Option String → Prop where
  | nil {awaited : Option String} : Paces awaited [] awaited
  | cons {awaited last : Option String} {action : Action} {rest : List Action}
      (h : action.Suits awaited) (hrest : Paces (action.awaits awaited) rest last) :
      Paces awaited (action :: rest) last

namespace Paces
variable {awaited next last : Option String} {actions rest : List Action} {action : Action}

theorem append (h : Paces awaited actions next) (h' : Paces next rest last) :
    Paces awaited (actions ++ rest) last := by
  induction h with
  | nil => exact h'
  | cons hsuits _ ih => exact .cons hsuits (ih h')

theorem single (h : action.Suits awaited) : Paces awaited [action] (action.awaits awaited) :=
  .cons h .nil

theorem typing (h : AllSteps (·.isTyping = true) actions) : Paces awaited actions awaited := by
  induction actions with
  | nil => exact .nil
  | cons action rest ih =>
    obtain ⟨haction, hrest⟩ := List.forall_mem_cons.mp h
    refine .cons (Action.suits_of_isTyping haction awaited) ?_
    rw [Action.awaits_of_isBorder (Action.isBorder_of_isTyping haction)]
    exact ih hrest

/-- A bound of the loop that is about to start. -/
theorem bound (counter : String) (e : Expr) (which : Bound) (line : Int) :
    Paces (some counter) (e.script ++ [.bound which line]) (some counter) :=
  (typing e.isTyping_of_mem_script).append (single (.inr (.inl ⟨which, line, rfl⟩)))

theorem loopHead (counter : String) (start finish : Expr) (line : Int) :
    Paces none (Action.loopHead counter start finish line) none := by
  have hcounter : Paces none [.counter counter line] (some counter) :=
    single fun _ h => nomatch h
  have hstart : Paces (some counter) [.enterLoop counter] none := single (.inr (.inr rfl))
  exact ((hcounter.append (bound counter start .start line)).append
    (bound counter finish .finish line)).append hstart

theorem holdsOfParts : HoldsOfParts fun actions => Paces none actions none where
  nil := .nil
  append := append
  single := by
    intro action h
    have hsuits : action.Suits none := by
      rintro n rfl
      cases h
    have hawaits : action.awaits none = none := by
      cases action <;> first | rfl | cases h
    have hsingle := single hsuits
    rw [hawaits] at hsingle
    exact hsingle
  expression e := typing e.isTyping_of_mem_script
  constant h := h.append (single fun _ haction => by cases haction)
  head := loopHead

/-- Steps in front of others suit, and the others suit behind them. -/
theorem split (h : Paces awaited (actions ++ rest) last) :
    Paces awaited actions (actions.foldl Action.awaits awaited) ∧
      Paces (actions.foldl Action.awaits awaited) rest last := by
  induction actions generalizing awaited with
  | nil => exact ⟨.nil, h⟩
  | cons first actions ih =>
    cases h with
    | cons hsuits hrest => exact ⟨.cons hsuits (ih hrest).1, (ih hrest).2⟩

theorem suits (h : Paces none (actions ++ action :: rest) last) :
    action.Suits (awaited? actions) := by
  cases h.split.2 with
  | cons hsuits _ => exact hsuits

end Paces

/-- **Nothing but its bounds stands between the counter of a loop and its start.** -/
theorem Node.paces_script (node : Node) : Paces none node.script none :=
  Paces.holdsOfParts.ofNode node

end PascalCheck
