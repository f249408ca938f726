import PascalCheck.Proofs.Walk.Mentions

/-! # What is modified has a name

A counter or a declaration may be without a name in the tree of a faulty source.  What is assigned
to or read into is not: a statement of these kinds is read only where a name stands
(`areNamed_parse`). -/
namespace PascalCheck

namespace Action

/-- What a step modifies, by an assignment or by reading into it, and on which line. -/
def modified? : Action → Option (String × Int)
  | target n line | read _ n line => some (n, line)
  | _ => none

/-- What the step modifies has a name. -/
def IsNamed (action : Action) : Prop :=
  ∀ n line, action.modified? = some (n, line) → n ≠ ""

/-- What is modified is mentioned. -/
theorem IsNamed.of_mentions {action : Action} (h : action.Mentions (· ≠ "")) :
    action.IsNamed := by
  intro n line hmodified
  have hmentioned : action.mentioned? = some n := by
    cases action <;> cases hmodified <;> rfl
  exact h n hmentioned

end Action

/-- What the steps modify has a name. -/
abbrev AreNamed (actions : List Action) : Prop :=
  AllSteps Action.IsNamed actions

namespace Grammar

/-- **In the tree of every source, what is modified has a name.** -/
theorem areNamed_parse (source : String) :
    AreNamed (parse (Lexed.ofSource source).tokens).value.toNode.script := by
  have hspelled : Provides (· ≠ "") (Lexed.ofSource source).lexemes := by
    intro t ht hkind
    refine Lexed.text_ne_of_mem ht ?_
    rw [hkind]
    simp
  exact fun action hmem => .of_mentions (mentions_parse hspelled action hmem)

end Grammar
end PascalCheck
