import PascalCheck.Proofs.Check.Reports
import PascalCheck.Proofs.Token.Blanking

/-! # Unrecognized characters stay the lexer's concern

What the reader makes of a text depends on its tokens only, and these are the same with spaces in
place of the characters that begin no token.  So these characters are reported once, in the first
phase, and change nothing else. -/
namespace PascalCheck

namespace Outcome

/-- **Unrecognized characters are reported once and change nothing else.**  The check of a source in
which each of them has given way to a space reports none, reads the same tokens at the same places,
builds the same tree and declares the same symbols; and its diagnostics are those of the source
behind the reports of the unrecognized characters. -/
theorem check_blankedSource {loader : Loader} (h : loader.Reachable) (name source : String) :
    ∃ outcome cleared,
      ofSource loader.catalogue name source = .ok outcome ∧
      ofSource loader.catalogue name (Lexed.blankedSource source) = .ok cleared ∧
      outcome.bag.ofPhase .lexical = (Lexed.ofSource source).diagnostics ∧
      cleared.bag.ofPhase .lexical = [] ∧
      (Lexed.ofSource (Lexed.blankedSource source)).tokens = (Lexed.ofSource source).tokens ∧
      cleared.program = outcome.program ∧ cleared.table = outcome.table ∧
      cleared.symbols = outcome.symbols ∧
      outcome.bag.entries = outcome.bag.ofPhase .lexical ++ cleared.bag.entries := by
  have hlexed := Lexed.ofSource_blankedSource source
  have htokens : (Lexed.ofSource (Lexed.blankedSource source)).tokens =
      (Lexed.ofSource source).tokens := by
    rw [hlexed]
    rfl
  obtain ⟨outcome, s, hcheck, hrun, hprogram, htable, hentries, hlexical, hsyntactic, hsemantic⟩ :=
    exists_phases_of_source h name source
  obtain ⟨cleared, s', hcheck', hrun', hprogram', htable', hentries', hlexical', hsyntactic',
    hsemantic'⟩ := exists_phases_of_source h name (Lexed.blankedSource source)
  rw [htokens] at hrun' hprogram' hsyntactic'
  obtain rfl : s = s' := Except.ok.inj (hrun.symm.trans hrun')
  have hsame : cleared.table = outcome.table := htable'.trans htable.symm
  have hclear : cleared.bag.ofPhase .lexical = [] := by
    rw [hlexical', hlexed]
  refine ⟨outcome, cleared, hcheck, hcheck', hlexical, hclear, htokens,
    hprogram'.trans hprogram.symm, hsame, by rw [symbols, symbols, hsame], ?_⟩
  calc outcome.bag.entries
      = outcome.bag.ofPhase .lexical ++ outcome.bag.ofPhase .syntactic ++
          outcome.bag.ofPhase .semantic := hentries
    _ = outcome.bag.ofPhase .lexical ++ (cleared.bag.ofPhase .lexical ++
          cleared.bag.ofPhase .syntactic ++ cleared.bag.ofPhase .semantic) := by
        rw [hclear, hsyntactic, hsyntactic', hsemantic, hsemantic', List.nil_append,
          List.append_assoc]
    _ = outcome.bag.ofPhase .lexical ++ cleared.bag.entries := by rw [← hentries']

theorem check_blankedSource_standard :
    ∃ outcome cleared,
      ofSource (Loader.loadStandard {}).catalogue "marks" "var x: integer; begin x :? = @1 end."
        = .ok outcome ∧
      ofSource (Loader.loadStandard {}).catalogue "marks"
        (Lexed.blankedSource "var x: integer; begin x :? = @1 end.") = .ok cleared ∧
      outcome.bag.ofPhase .lexical =
        (Lexed.ofSource "var x: integer; begin x :? = @1 end.").diagnostics ∧
      cleared.bag.ofPhase .lexical = [] ∧
      (Lexed.ofSource (Lexed.blankedSource "var x: integer; begin x :? = @1 end.")).tokens =
        (Lexed.ofSource "var x: integer; begin x :? = @1 end.").tokens ∧
      cleared.program = outcome.program ∧ cleared.table = outcome.table ∧
      cleared.symbols = outcome.symbols ∧
      outcome.bag.entries = outcome.bag.ofPhase .lexical ++ cleared.bag.entries :=
  check_blankedSource (.standard .empty) _ _

end Outcome
end PascalCheck
