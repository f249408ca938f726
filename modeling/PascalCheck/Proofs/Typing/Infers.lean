import PascalCheck.Proofs.Analysis.Returns
import PascalCheck.Proofs.Typing.Rules

/-! Steps of an analysis and the errors they find.

A step may record uses and warn, but it changes neither what names mean nor what has been found to
be in error before; whether it finds a further error depends on the value that it gives (`Infers`).
Two steps one after the other find no further error if neither of them does. -/
namespace PascalCheck

/-- What has been found to be in error. -/
def AnalysisState.errors (s : AnalysisState) : List LocatedFinding :=
  s.findings.toList.filter fun found => found.finding.severity = .error

/-- The step keeps what names mean and what has been found to be in error, and it gives a value
without finding a further error exactly if the value has the property. -/
structure Infers {α : Type} (m : Analysis α) (s : AnalysisState) (P : α → Prop) : Prop where
  keeps : ∀ a s', StateT.run m s = .ok (a, s') →
    s'.environment = s.environment ∧ s.errors <+: s'.errors
  gives : ∀ a, (∃ s', StateT.run m s = .ok (a, s') ∧ s'.errors = s.errors) ↔ P a

namespace ScopeTable

theorem scopes_update (table : ScopeTable) (name : String) (change : Symbol → Symbol) :
    (table.update name change).scopes = table.scopes := by
  unfold update
  split <;> rfl

theorem lookup_update (table : ScopeTable) (name other : String) (change : Symbol → Symbol) :
    (table.update name change).lookup other = table.lookup other := by
  unfold update
  split <;> rfl

/-- A change that leaves the types of symbols alone leaves the types of names alone. -/
theorem ty_find?_update (table : ScopeTable) (name other : String) {change : Symbol → Symbol}
    (h : ∀ symbol, (change symbol).ty = symbol.ty) :
    ((table.update name change).find? other).map (·.ty) = (table.find? other).map (·.ty) := by
  unfold find?
  rw [lookup_update]
  cases table.lookup other with
  | none => rfl
  | some number =>
    -- The changed symbol may be the one looked for, or another.
    unfold update
    split
    next changed _ =>
      show ((table.symbols.modify changed change)[number]?).map (·.ty) = _
      rw [Array.getElem?_modify]
      split
      · simp [Function.comp_def, h]
      · rfl
    next => rfl

end ScopeTable

namespace Infers
variable {α β : Type} {m m' : Analysis α} {s : AnalysisState} {P Q : α → Prop}

theorem congr (h : Infers m s P) (hpq : ∀ a, P a ↔ Q a) : Infers m s Q :=
  ⟨h.keeps, fun a => (h.gives a).trans (hpq a)⟩

theorem of_run_eq (hrun : StateT.run m s = StateT.run m' s) (h : Infers m' s P) : Infers m s P :=
  ⟨fun a s' hm => h.keeps a s' (hrun ▸ hm), fun a => by rw [hrun]; exact h.gives a⟩

theorem pure (a : α) : Infers (pure a) s (· = a) := by
  constructor
  · intro b s' h
    cases h
    exact ⟨rfl, List.prefix_refl _⟩
  · intro b
    constructor
    · rintro ⟨s', h, -⟩
      cases h
      rfl
    · rintro rfl
      exact ⟨s, rfl, rfl⟩

theorem throw (fault : Fault) : Infers (throw fault : Analysis α) s fun _ => False := by
  constructor
  · intro b s' h
    cases h
  · intro b
    constructor
    · rintro ⟨s', h, -⟩
      cases h
    · exact False.elim

/-- A step of two finds no further error if neither of them does. -/
theorem bind {f : α → Analysis β} {R : α → β → Prop} (h : Infers m s P)
    (hf : ∀ a s', StateT.run m s = .ok (a, s') → s'.environment = s.environment →
      Infers (f a) s' (R a)) :
    Infers (m >>= f) s fun b => ∃ a, P a ∧ R a b := by
  constructor
  · intro b s'' hb
    obtain ⟨a, s', hm, hfa⟩ := Analysis.run_bind_eq_ok.mp hb
    obtain ⟨henv, hle⟩ := h.keeps a s' hm
    obtain ⟨henv', hle'⟩ := (hf a s' hm henv).keeps b s'' hfa
    exact ⟨henv'.trans henv, hle.trans hle'⟩
  · intro b
    constructor
    · rintro ⟨s'', hb, he⟩
      obtain ⟨a, s', hm, hfa⟩ := Analysis.run_bind_eq_ok.mp hb
      obtain ⟨henv, hle⟩ := h.keeps a s' hm
      have hstep := hf a s' hm henv
      have hle' := (hstep.keeps b s'' hfa).2
      -- The errors in between lie between equal ends.
      have hsame : s'.errors = s.errors :=
        (hle.eq_of_length_le (he ▸ hle'.length_le)).symm
      exact ⟨a, (h.gives a).mp ⟨s', hm, hsame⟩,
        (hstep.gives b).mp ⟨s'', hfa, he.trans hsame.symm⟩⟩
    · rintro ⟨a, ha, hb⟩
      obtain ⟨s', hm, he⟩ := (h.gives a).mpr ha
      obtain ⟨s'', hfa, he'⟩ := ((hf a s' hm (h.keeps a s' hm).1).gives b).mpr hb
      exact ⟨s'', Analysis.run_bind_eq_ok.mpr ⟨a, s', hm, hfa⟩, he'.trans he⟩

end Infers

namespace Analysis
variable {s : AnalysisState}

theorem errors_report (s : AnalysisState) (line : Int) (finding : Finding) :
    ({ s with findings := s.findings.push ⟨finding, line⟩ } : AnalysisState).errors =
      s.errors ++ if finding.severity = .error then [⟨finding, line⟩] else [] := by
  simp [AnalysisState.errors, List.filter_append, List.filter_cons]

theorem infers_warning (line : Int) {finding : Finding} (h : finding.severity = .warning) :
    Infers (report line finding) s fun _ => True := by
  have herrors := errors_report s line finding
  simp only [h, reduceCtorEq, if_false, List.append_nil] at herrors
  constructor
  · intro a s' hr
    cases hr
    exact ⟨rfl, herrors ▸ List.prefix_refl _⟩
  · intro a
    exact iff_of_true ⟨_, rfl, herrors⟩ trivial

theorem infers_error (line : Int) {finding : Finding} (h : finding.severity = .error) :
    Infers (report line finding) s fun _ => False := by
  have herrors := errors_report s line finding
  simp only [h, if_true] at herrors
  constructor
  · intro a s' hr
    cases hr
    exact ⟨rfl, herrors ▸ List.prefix_append _ _⟩
  · intro a
    constructor
    · rintro ⟨s', hr, he⟩
      cases hr
      rw [herrors] at he
      simp at he
    · exact False.elim

/-- Nothing that follows an error takes it back. -/
theorem infers_error_then {α : Type} (line : Int) {finding : Finding}
    (h : finding.severity = .error) (a : α) :
    Infers (do report line finding; return a) s fun _ => False :=
  ((infers_error line h).bind fun _ _ _ _ => Infers.pure a).congr fun _ => by simp

theorem infers_reject (line : Int) {finding : Finding} (h : finding.severity = .error) :
    Infers (reject line finding) s fun _ => False :=
  infers_error_then line h _

theorem infers_countUse (name : String) :
    Infers (changeTable (·.countUse name)) s fun _ => True := by
  have henv : ({ s with table := s.table.countUse name } : AnalysisState).environment =
      s.environment := by
    simp only [AnalysisState.environment, Environment.mk.injEq, and_true]
    funext other
    exact s.table.ty_find?_update name other fun _ => rfl
  constructor
  · intro a s' hr
    cases hr
    exact ⟨henv, List.prefix_refl _⟩
  · intro a
    exact iff_of_true ⟨_, rfl, rfl⟩ trivial

/-- Symbols are read without a change. -/
theorem infers_symbol? {α : Type} {name : String} {f : Option Symbol → Analysis α} {P : α → Prop}
    (h : Infers (f (s.table.find? name)) s P) : Infers (symbol? name >>= f) s P := by
  refine Infers.of_run_eq ?_ h
  rfl

/-- Routines are read without a change. -/
theorem infers_routine? {α : Type} {name : String} {f : Option DeclaredRoutine → Analysis α}
    {P : α → Prop} (h : Infers (f (s.environment.routine? name)) s P) :
    Infers (routine? name >>= f) s P := by
  refine Infers.of_run_eq ?_ h
  rfl

end Analysis
end PascalCheck
