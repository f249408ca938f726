import PascalCheck.Proofs.Walk.Parts

/-! # The arguments of a call

A call in an expression takes as many of the types that are held as it has arguments.  In a script
the steps of its arguments stand right in front of it (`isSupplied_script`), so that where a walk
that passes nothing over comes to a call, the types are there (`length_le_of_reaches`). -/
namespace PascalCheck

/-- In front of every call in an expression stand the steps of its arguments. -/
def IsSupplied (actions : List Action) : Prop :=
  ∀ front name count line rest, actions = front ++ .call name count line :: rest →
    ∃ outer arguments, front = outer ++ Expr.scripts arguments ∧ arguments.length = count

namespace IsSupplied
variable {actions more : List Action}

/-- What is supplied on its own is supplied behind other steps. -/
theorem append (h : IsSupplied actions) (h' : IsSupplied more) : IsSupplied (actions ++ more) := by
  intro front name count line rest hsplit
  rcases Action.split_append hsplit with ⟨inner, hactions⟩ | ⟨between, rfl, hmore⟩
  · exact h front name count line inner hactions
  · obtain ⟨outer, arguments, rfl, hcount⟩ := h' between name count line rest hmore
    exact ⟨actions ++ outer, arguments, (List.append_assoc _ _ _).symm, hcount⟩

theorem nil : IsSupplied [] := by
  intro front name count line rest hsplit
  simp at hsplit

/-- A step that is no call takes nothing. -/
theorem single {action : Action} (h : ∀ name count line, action ≠ .call name count line) :
    IsSupplied [action] := by
  intro front name count line rest hsplit
  obtain ⟨-, hlast⟩ | ⟨_, _, hnil⟩ := List.cons_eq_append_iff.mp hsplit
  · exact absurd (List.head_eq_of_cons_eq hlast).symm (h name count line)
  · simp at hnil

/-- The steps of the arguments hold one type each for the call behind them. -/
theorem call {arguments : List Expr} (h : IsSupplied (Expr.scripts arguments)) (name : String)
    (line : Int) :
    IsSupplied (Expr.scripts arguments ++ [.call name arguments.length line]) := by
  intro front other count place rest hsplit
  rcases Action.split_append hsplit with ⟨inner, hfront⟩ | ⟨between, rfl, hlast⟩
  · exact h front other count place inner hfront
  · obtain ⟨rfl, hcall⟩ | ⟨_, _, hnil⟩ := List.cons_eq_append_iff.mp hlast
    · cases hcall
      exact ⟨[], arguments, List.append_nil _, rfl⟩
    · simp at hnil

end IsSupplied

/-! ## Scripts -/

namespace Expr

mutual

/-- In the script of an expression every call comes behind its arguments. -/
theorem isSupplied_script : ∀ e : Expr, IsSupplied e.script
  | .absent | .placeholder _ _ | .literal _ _ _ | .identifier _ _ => .single nofun
  | .call name arguments line => (isSupplied_scripts arguments).call name line
  | .element _ index _ => (isSupplied_script index).append (.single nofun)
  | .binary _ left right _ =>
    ((isSupplied_script left).append (isSupplied_script right)).append (.single nofun)
  | .unary _ operand _ => (isSupplied_script operand).append (.single nofun)

theorem isSupplied_scripts : ∀ es : List Expr, IsSupplied (scripts es)
  | [] => .nil
  | e :: rest => (isSupplied_script e).append (isSupplied_scripts rest)

end

end Expr

theorem isSupplied_loopHead (counter : String) (start finish : Expr) (line : Int) :
    IsSupplied (Action.loopHead counter start finish line) := by
  have hcounter : IsSupplied [.counter counter line] := .single nofun
  have hbound : ∀ which, IsSupplied [.bound which line] := fun _ => .single nofun
  exact ((hcounter.append (start.isSupplied_script.append (hbound .start))).append
    (finish.isSupplied_script.append (hbound .finish))).append (.single nofun)

theorem IsSupplied.holdsOfParts : HoldsOfParts IsSupplied where
  nil := .nil
  append := .append
  single h := .single fun _ _ _ haction => by
    rw [haction] at h
    cases h
  expression := Expr.isSupplied_script
  constant h := h.append (.single fun _ _ _ haction => by cases haction)
  head := isSupplied_loopHead

/-- **In front of every call of a program stand its arguments.** -/
theorem Node.isSupplied_script (node : Node) : IsSupplied node.script :=
  IsSupplied.holdsOfParts.ofNode node

/-! ## Walks -/

namespace Analysis
variable {catalogue : Catalogue}

/-- A list of expressions has as many types. -/
theorem length_typesOf {es : List Expr} {types : List Ty} {s s' : AnalysisState}
    (h : StateT.run (typesOf catalogue es) s = .ok (types, s')) : types.length = es.length := by
  induction es generalizing types s s' with
  | nil =>
    cases h
    rfl
  | cons e rest ih =>
    obtain ⟨ty, here, -, h⟩ := run_bind_eq_ok.mp h
    obtain ⟨more, last, hmore, h⟩ := run_bind_eq_ok.mp h
    cases h
    exact congrArg (· + 1) (ih hmore)

/-- **Where a walk comes behind expressions, their types are held**, unless it passes them over. -/
theorem length_le_of_reaches {outer : List Action} {arguments : List Expr} {held : Held}
    {s : AnalysisState} (h : Reaches catalogue (outer ++ Expr.scripts arguments) held s)
    (hactive : held.skipping = false) : arguments.length ≤ held.types.length := by
  unfold Reaches at h
  rw [performAll_append, run_bind_eq_ok] at h
  obtain ⟨⟨types, skipping⟩, here, -, harguments⟩ := h
  cases skipping with
  | true =>
    have hskip : ∀ a ∈ Expr.scripts arguments, a.isStore = false := fun a ha =>
      Action.isStore_of_isTyping (Expr.isTyping_of_mem_scripts arguments a ha)
    rw [performAll_true hskip] at harguments
    cases harguments
    cases hactive
  | false =>
    rw [performAll_scripts] at harguments
    obtain ⟨given, there, hgiven, harguments⟩ := run_bind_eq_ok.mp harguments
    cases harguments
    simp [length_typesOf hgiven]

end Analysis
end PascalCheck
