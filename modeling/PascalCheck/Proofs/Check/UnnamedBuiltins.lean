import PascalCheck.Proofs.Check.Totality
import PascalCheck.Proofs.Walk.Mentions

/-! # Built-in routines that a source does not name

A check asks for built-in routines by name only, and by names that stand in the source as
identifiers: those of expressions and calls, which the reader takes from its tokens.  So two
catalogues in which these names mean the same give the same outcome, whatever else is in them and in
whatever order (`ofSource_congr_catalogue`). -/
namespace PascalCheck

/-- The name, in any letter case, means the same in both catalogues: the same function or none, and
the same procedure or none. -/
structure Catalogue.AgreeOn (catalogue other : Catalogue) (name : String) : Prop where
  function : catalogue.function? name = other.function? name
  procedure : catalogue.procedure? name = other.procedure? name

namespace Analysis
variable {catalogue other : Catalogue} {name : String}

/-! ## Steps -/

theorem callType_congr (h : catalogue.AgreeOn other name) (types : List Ty) (line : Int) :
    callType catalogue name types line = callType other name types line := by
  unfold callType
  rw [h.function, h.procedure]

theorem nameType_congr (h : catalogue.AgreeOn other name) (line : Int) :
    nameType catalogue name line = nameType other name line := by
  have hroutine : isRoutine catalogue name = isRoutine other name := by
    unfold isRoutine
    rw [h.function, h.procedure]
  unfold nameType
  rw [hroutine, callType_congr h]

theorem checkCall_congr (h : catalogue.AgreeOn other name) (given : Nat) (line : Int) :
    checkCall catalogue name given line = checkCall other name given line := by
  unfold checkCall
  rw [h.function, h.procedure]

/-- A step asks for built-in routines of the name that it mentions only. -/
theorem effect_congr {action : Action} (h : action.Mentions (catalogue.AgreeOn other))
    (types : List Ty) : action.effect catalogue types = action.effect other types := by
  cases action with
  | name n line =>
    have hname := nameType_congr (h n rfl) line
    simp only [Action.effect, hname]
  | call n arguments line =>
    have hcall := callType_congr (h n rfl) (types.take arguments).reverse line
    simp only [Action.effect, hcall]
  | invoke n arguments line =>
    have hcall := checkCall_congr (h n rfl) arguments line
    simp only [Action.effect, hcall]
  | _ => rfl

theorem perform_congr {action : Action} (h : action.Mentions (catalogue.AgreeOn other))
    (held : Held) : action.perform catalogue held = action.perform other held := by
  unfold Action.perform
  rw [effect_congr h]

/-! ## Walks -/

theorem performAll_congr {actions : List Action}
    (h : MentionOnly (catalogue.AgreeOn other) actions) (held : Held) :
    performAll catalogue actions held = performAll other actions held := by
  induction actions generalizing held with
  | nil => rfl
  | cons action rest ih =>
    obtain ⟨haction, hrest⟩ := List.forall_mem_cons.mp h
    rw [performAll_cons, performAll_cons, perform_congr haction]
    exact bind_congr fun next => ih hrest next

/-- A walk is what is performed of its script, and what is held behind that is not needed. -/
theorem walk_eq_performAll (node : Node) :
    walk catalogue node = performAll catalogue node.script {} >>= fun _ => pure () := by
  rw [performAll_walk, bind_assoc]
  simp only [pure_bind]
  exact (bind_pure _).symm

theorem walk_congr {node : Node} (h : node.Mentions (catalogue.AgreeOn other)) :
    walk catalogue node = walk other node := by
  rw [walk_eq_performAll, walk_eq_performAll, performAll_congr h]

/-- **An analysis asks for built-in routines of the names in the tree only.** -/
theorem run_congr {p : Program} (h : p.toNode.Mentions (catalogue.AgreeOn other)) :
    run catalogue p = run other p := by
  unfold run program
  rw [walk_congr h]

end Analysis

namespace Outcome

/-- **Built-in routines that a source does not name do not change its outcome**: catalogues in which
all identifiers of the source mean the same give the same outcome, which there is if the functions
have results. -/
theorem ofSource_congr_catalogue {catalogue other : Catalogue} (name source : String)
    (h : ∀ t ∈ (Lexed.ofSource source).tokens, t.kind = .identifier →
      catalogue.AgreeOn other t.text) :
    ofSource catalogue name source = ofSource other name source ∧
      (catalogue.HasResults → ∃ outcome, ofSource catalogue name source = .ok outcome) := by
  have hlexemes : Grammar.Provides (catalogue.AgreeOn other) (Lexed.ofSource source).lexemes :=
    fun t ht => h t (List.mem_append_left _ ht)
  have hrun := Analysis.run_congr (Grammar.mentions_parse hlexemes)
  constructor
  · simp only [ofSource, hrun]
  · intro hresults
    obtain ⟨s, hs⟩ := Analysis.run_of_isWalkable hresults
      (Grammar.isWalkable_parse (Lexed.ofSource source).tokens)
    simp only [ofSource, hs]
    exact ⟨_, rfl⟩

/-- A source that calls `abs` and `dec` is checked alike with other routines of other names, also of
the name of a keyword. -/
theorem ofSource_congr_catalogue_abs :
    let loaded := Loader.loadStandard {}
    let more := loaded.loadTable [⟨"GetCh", "Char", 0, 0⟩, ⟨"sin", "integer", 2, 3⟩]
      [⟨"write", 1, 1⟩]
    loaded.catalogue ≠ more.catalogue ∧
    ofSource loaded.catalogue "a" "begin write(Abs(-x)); Dec(x) end." =
      ofSource more.catalogue "a" "begin write(Abs(-x)); Dec(x) end." ∧
    ∃ outcome, ofSource loaded.catalogue "a" "begin write(Abs(-x)); Dec(x) end." = .ok outcome := by
  intro loaded more
  have hagree : ∀ t ∈ (Lexed.ofSource "begin write(Abs(-x)); Dec(x) end.").tokens,
      t.kind = .identifier →
        loaded.catalogue.function? t.text = more.catalogue.function? t.text ∧
          loaded.catalogue.procedure? t.text = more.catalogue.procedure? t.text := by
    decide +kernel
  have hresults : loaded.catalogue.HasResults := (Loader.Reachable.standard .empty).hasResults
  obtain ⟨hsame, hreturns⟩ := @ofSource_congr_catalogue loaded.catalogue more.catalogue "a"
    "begin write(Abs(-x)); Dec(x) end."
    fun t ht hkind => ⟨(hagree t ht hkind).1, (hagree t ht hkind).2⟩
  exact ⟨by decide +kernel, hsame, hreturns hresults⟩

end Outcome
end PascalCheck
