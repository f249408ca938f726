import PascalCheck.Proofs.Check.Totality
import PascalCheck.Proofs.LetterCase.Declarations
import PascalCheck.Proofs.LetterCase.Message
import PascalCheck.Proofs.LetterCase.Source

/-! # A check does not see the case of letters

Two sources that differ in the case of ASCII letters only, and not inside strings, have the same
tokens up to the case of names.  Reading and analysis carry names along and compare them in lower
case, so that what they find of the two sources differs in the case of names only. -/
namespace PascalCheck

/-- The token with its text in lower case. -/
def Token.lower (t : Token) : Token :=
  { t with text := Text.lower t.text }

/-- The diagnostic with its message in lower case. -/
def Diagnostic.lower (d : Diagnostic) : Diagnostic :=
  { d with message := Text.lower d.message }

/-- The symbol with its name in lower case. -/
def Symbol.lower (symbol : Symbol) : Symbol :=
  { symbol with name := Text.lower symbol.name }

theorem Token.lower_foldName (t : Token) : t.foldName.lower = t.lower := by
  unfold foldName
  split
  · simp [lower]
  · rfl

theorem Diagnostic.lower_foldMessage (d : Diagnostic) : d.foldMessage.lower = d.lower := by
  simp [foldMessage, lower]

theorem Symbol.lower_foldName (symbol : Symbol) : symbol.foldName.lower = symbol.lower := by
  simp [foldName, lower]

theorem GrammarFault.lower_diagnostic_foldName (fault : GrammarFault) :
    fault.foldName.diagnostic.lower = fault.diagnostic.lower := by
  have hmessage := Text.lower_eq_of_toLower_eq fault.toLower_message_foldName
  simp only [diagnostic, Diagnostic.of, Diagnostic.lower, hmessage]
  simp [foldName]

theorem LocatedFinding.lower_diagnostic_foldNames (found : LocatedFinding) :
    found.foldNames.diagnostic.lower = found.diagnostic.lower := by
  have hmessage := Text.lower_eq_of_toLower_eq found.finding.toLower_message_foldNames
  simp only [diagnostic, Diagnostic.of, Diagnostic.lower, foldNames, hmessage,
    Finding.severity_foldNames]

/-- Lists that agree with names folded agree in lower case, which does not see the folding. -/
theorem map_lower_eq {α β : Type} {fold : α → α} {lower : α → β} {as bs : List α}
    (h : as.map fold = bs.map fold) (hlower : ∀ a, lower (fold a) = lower a) :
    as.map lower = bs.map lower :=
  map_eq_map_of h fun a _ b _ hab => by rw [← hlower a, hab, hlower b]

namespace Outcome

/-- **Letter case never matters**: with any built-in routines that can be loaded, two sources that
differ in the case of ASCII letters only, and not inside strings, have outcomes that differ in
letter case only. -/
theorem ofSource_letterCase {loader : Loader} (hl : loader.Reachable) (name : String)
    {a b : String} (h : SameButCase a b) :
    ∃ x y, ofSource loader.catalogue name a = .ok x ∧ ofSource loader.catalogue name b = .ok y ∧
      (Lexed.ofSource a).tokens.map Token.lower = (Lexed.ofSource b).tokens.map Token.lower ∧
      x.tokenCount = y.tokenCount ∧
      x.bag.entries.map Diagnostic.lower = y.bag.entries.map Diagnostic.lower ∧
      x.symbols.map Symbol.lower = y.symbols.map Symbol.lower := by
  have htokens := h.tokens_foldName
  have hparse := congrArg Grammar.parse htokens
  rw [Grammar.parse_map_foldName, Grammar.parse_map_foldName] at hparse
  have hvalue : (Grammar.parse (Lexed.ofSource a).tokens).value.foldNames =
      (Grammar.parse (Lexed.ofSource b).tokens).value.foldNames := congrArg Step.value hparse
  have hfaults : (Grammar.parse (Lexed.ofSource a).tokens).faults.map GrammarFault.foldName =
      (Grammar.parse (Lexed.ofSource b).tokens).faults.map GrammarFault.foldName :=
    congrArg Step.faults hparse
  obtain ⟨s, hs⟩ := Analysis.run_of_isWalkable hl.hasResults
    (Grammar.isWalkable_parse (Lexed.ofSource a).tokens)
  obtain ⟨t, ht⟩ := Analysis.run_of_isWalkable hl.hasResults
    (Grammar.isWalkable_parse (Lexed.ofSource b).tokens)
  have hstate : s.foldNames = t.foldNames := by
    have hrun := congrArg (Analysis.run loader.catalogue) hvalue
    rw [Analysis.run_foldNames, Analysis.run_foldNames, hs, ht] at hrun
    exact Except.ok.inj hrun
  have hfindings : s.findings.toList.map LocatedFinding.foldNames =
      t.findings.toList.map LocatedFinding.foldNames := by
    simpa [AnalysisState.foldNames] using
      congrArg Array.toList (congrArg AnalysisState.findings hstate)
  have hsymbols : s.table.symbols.toList.map Symbol.foldName =
      t.table.symbols.toList.map Symbol.foldName := by
    simpa [AnalysisState.foldNames, ScopeTable.foldNames] using
      congrArg Array.toList (congrArg ScopeTable.symbols (congrArg AnalysisState.table hstate))
  simp only [ofSource, hs, ht]
  refine ⟨_, _, rfl, rfl, map_lower_eq htokens Token.lower_foldName, ?_, ?_,
    map_lower_eq hsymbols Symbol.lower_foldName⟩
  · have hlength := congrArg List.length htokens
    simpa [Lexed.tokens] using hlength
  · have hreported : s.diagnostics.map Diagnostic.lower = t.diagnostics.map Diagnostic.lower := by
      simp only [AnalysisState.diagnostics, List.map_map]
      exact map_lower_eq hfindings LocatedFinding.lower_diagnostic_foldNames
    simp only [List.map_append, List.map_map, hreported,
      map_lower_eq h.diagnostics_foldMessage Diagnostic.lower_foldMessage]
    rw [@map_lower_eq _ _ _ (Diagnostic.lower ∘ GrammarFault.diagnostic) _ _ hfaults
      GrammarFault.lower_diagnostic_foldName]

theorem ofSource_letterCase_write :
    SameButCase "Write('Hi', Id)" "WRITE('Hi', iD)" ∧
    ∃ x y, ofSource (Loader.loadStandard {}).catalogue "a" "Write('Hi', Id)" = .ok x ∧
      ofSource (Loader.loadStandard {}).catalogue "a" "WRITE('Hi', iD)" = .ok y ∧
      (Lexed.ofSource "Write('Hi', Id)").tokens.map Token.lower =
        (Lexed.ofSource "WRITE('Hi', iD)").tokens.map Token.lower ∧
      x.tokenCount = y.tokenCount ∧
      x.bag.entries.map Diagnostic.lower = y.bag.entries.map Diagnostic.lower ∧
      x.symbols.map Symbol.lower = y.symbols.map Symbol.lower := by
  have h : SameButCase "Write('Hi', Id)" "WRITE('Hi', iD)" := by
    constructor
    · rw [← String.toList_inj, Text.toList_toLower, Text.toList_toLower]
      decide
    · have hsplit : Piece.split "Write('Hi', Id)".toList =
          [⟨.lexeme (.keyword .write) "write", "Write".toList⟩, ⟨.lexeme .leftParen "(", ['(']⟩,
            ⟨.lexeme .stringLiteral "Hi", "'Hi'".toList⟩, ⟨.lexeme .comma ",", [',']⟩,
            ⟨.blank, [' ']⟩, ⟨.lexeme .identifier "Id", "Id".toList⟩,
            ⟨.lexeme .rightParen ")", [')']⟩] := by
        decide +kernel
      rw [hsplit]
      decide
  exact ⟨h, ofSource_letterCase (.standard .empty) "a" h⟩

end Outcome
end PascalCheck
