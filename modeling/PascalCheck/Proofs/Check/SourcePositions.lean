import PascalCheck.Proofs.Check.LexicalErrors
import PascalCheck.Proofs.Grammar.Acceptance
import PascalCheck.Proofs.Grammar.Positions

/-! # Every diagnostic points into the source

The diagnostics of a check come phase by phase.  Those of the reader stand at later and later
places, those of the grammar at one token after another, and those of the analysis on a line without
a column.  The lines of all of them, and of all symbols, are lines of the source: each has come from
a token, through the tree and what is recorded of names. -/
namespace PascalCheck

/-! ## Tokens in order -/

namespace Grammar
variable {finish : EndMark}

/-- The token that comes next is the one at its place, or the mark behind all of them. -/
theorem getElem?_mark (ts : List Token) (place : Nat) :
    (ts ++ [finish.token])[min place ts.length]? = some (next finish (ts.drop place)) := by
  have hnext : next finish (ts.drop place) = ts[place]?.getD finish.token := by
    rw [next, List.headD_eq_head?_getD, List.head?_drop]
  rw [hnext]
  by_cases hplace : place < ts.length
  · rw [Nat.min_eq_left (Nat.le_of_lt hplace), List.getElem?_append_left hplace,
      List.getElem?_eq_getElem hplace]
    rfl
  · have hle : ts.length ≤ place := Nat.le_of_not_lt hplace
    rw [Nat.min_eq_right hle, List.getElem?_append_right (Nat.le_refl _), Nat.sub_self,
      List.getElem?_eq_none hle]
    rfl

theorem next_mem (ts : List Token) (place : Nat) :
    next finish (ts.drop place) ∈ ts ++ [finish.token] :=
  List.mem_of_getElem? (getElem?_mark ts place)

/-- Reading on leads to no earlier token. -/
theorem spot_next_le {ts : List Token}
    (h : (ts ++ [finish.token]).Pairwise (·.spot < ·.spot)) {place other : Nat}
    (hle : place ≤ other) :
    (next finish (ts.drop place)).spot ≤ (next finish (ts.drop other)).spot := by
  obtain ⟨hi, hplace⟩ := List.getElem?_eq_some_iff.mp (@getElem?_mark finish ts place)
  obtain ⟨hj, hother⟩ := List.getElem?_eq_some_iff.mp (@getElem?_mark finish ts other)
  rw [← hplace, ← hother]
  have hmin : min place ts.length ≤ min other ts.length := by omega
  rcases Nat.lt_or_eq_of_le hmin with hlt | heq
  · exact (List.pairwise_iff_getElem.mp h _ _ hi hj hlt).le
  · simp only [heq, le_refl]

end Grammar

namespace GrammarFault

/-- A fault is reported at its token. -/
theorem spot_diagnostic {fault : GrammarFault} (h : 1 ≤ fault.found.column) :
    fault.diagnostic.spot = fault.found.spot := by
  have hcolumn : fault.found.column ≠ 0 := by omega
  simp only [Diagnostic.spot, diagnostic, Diagnostic.of, Site.recordedLine, Site.recordedColumn,
    Option.getD_some, if_neg hcolumn, Token.spot]

end GrammarFault

namespace Lexed

/-- The end mark of a source, as the grammar has it. -/
def endMark (lexed : Lexed) : EndMark :=
  ⟨"", lexed.finish.offset, lexed.finish.line, lexed.finish.column⟩

theorem parse_tokens (lexed : Lexed) :
    Grammar.parse lexed.tokens = Grammar.program lexed.endMark lexed.lexemes :=
  Grammar.parse_mark lexed.endMark lexed.lexemes

theorem onLines (source : String) :
    Grammar.OnLines (ofSource source).endMark (IsLineOf source) (ofSource source).lexemes where
  mark := IsLineOf.of_mem_tokens
    (List.mem_append_right (ofSource source).lexemes (List.mem_singleton_self _))
  token _ ht := IsLineOf.of_mem_tokens (List.mem_append_left _ ht)

end Lexed

/-! ## Faults and steps of a source -/

variable {source : String}

/-- The faults of a source are found at its tokens, one after another. -/
theorem GrammarFault.found_mem {fault : GrammarFault}
    (h : fault ∈ (Grammar.parse (Lexed.ofSource source).tokens).faults) :
    fault.found ∈ (Lexed.ofSource source).tokens := by
  rw [Lexed.parse_tokens] at h
  obtain ⟨places, -, -, hfound⟩ := (Grammar.isLocated_program (Lexed.onLines source)).places
  have hmem := List.mem_map_of_mem (f := GrammarFault.found) h
  rw [hfound] at hmem
  obtain ⟨place, -, hplace⟩ := List.mem_map.mp hmem
  rw [← hplace]
  exact @Grammar.next_mem (Lexed.ofSource source).endMark _ place

theorem GrammarFault.pairwise_found (source : String) :
    (Grammar.parse (Lexed.ofSource source).tokens).faults.Pairwise
      (·.found.spot ≤ ·.found.spot) := by
  have hordered := Lexed.pairwise_tokens source
  obtain ⟨places, hplaces, -, hfound⟩ := (Grammar.isLocated_program (Lexed.onLines source)).places
  have hspots : ((Grammar.program (Lexed.ofSource source).endMark
      (Lexed.ofSource source).lexemes).faults.map found).Pairwise
        (fun t u => t.spot ≤ u.spot) := by
    rw [hfound, List.pairwise_map]
    exact hplaces.imp fun hle => Grammar.spot_next_le hordered hle
  rw [Lexed.parse_tokens]
  rw [List.pairwise_map] at hspots
  exact hspots

/-- The tree of a source stands on its lines. -/
theorem Node.standsOn_parse (source : String) :
    (Grammar.parse (Lexed.ofSource source).tokens).value.toNode.StandsOn (IsLineOf source) := by
  rw [Lexed.parse_tokens]
  exact (Grammar.isLocated_program (Lexed.onLines source)).value

/-! ## The check -/

namespace Outcome

/-- The diagnostics come phase by phase and point into the source: the lexical ones at later and
later places, the syntactic ones at one token after another, and the semantic ones on lines without
a column; all of them, and all symbols, stand on lines of the source. -/
structure PointsInto (outcome : Outcome) (source : String) : Prop where
  phases : outcome.bag.entries = outcome.bag.ofPhase .lexical ++ outcome.bag.ofPhase .syntactic ++
    outcome.bag.ofPhase .semantic
  lexical : (outcome.bag.ofPhase .lexical).Pairwise (·.spot < ·.spot)
  syntactic : (outcome.bag.ofPhase .syntactic).Pairwise (·.spot ≤ ·.spot)
  tokens : ∀ d ∈ outcome.bag.ofPhase .syntactic, ∃ t ∈ (Lexed.ofSource source).tokens,
    d.line = t.line ∧ d.column = t.column
  semantic : ∀ d ∈ outcome.bag.ofPhase .semantic, d.column = -1
  lines : ∀ d ∈ outcome.bag.entries, IsLineOf source d.line
  symbols : ∀ symbol ∈ outcome.symbols, IsLineOf source symbol.line

/-- **The diagnostics of every check are ordered by phase and point into the source**, and its
symbols stand on lines of the source. -/
theorem ofSource_pointsInto {loader : Loader} (h : loader.Reachable) (name source : String) :
    ∃ outcome, ofSource loader.catalogue name source = .ok outcome ∧
      outcome.PointsInto source := by
  obtain ⟨outcome, s, hcheck, hrun, -, htable, hphases, hlexical, hsyntactic, hsemantic⟩ :=
    exists_phases_of_source h name source
  obtain ⟨hdeclared, hfound⟩ := Analysis.standsOn_of_run (Node.standsOn_parse source) hrun
  have hspot : ∀ fault ∈ (Grammar.parse (Lexed.ofSource source).tokens).faults,
      fault.diagnostic.spot = fault.found.spot := fun fault hfault =>
    GrammarFault.spot_diagnostic
      (Lexed.one_le_column_of_mem_tokens (GrammarFault.found_mem hfault))
  have htokens : ∀ d ∈ outcome.bag.ofPhase .syntactic, ∃ t ∈ (Lexed.ofSource source).tokens,
      d.line = t.line ∧ d.column = t.column := by
    intro d hd
    rw [hsyntactic] at hd
    obtain ⟨fault, hfault, rfl⟩ := List.mem_map.mp hd
    have hsame := hspot fault hfault
    exact ⟨fault.found, GrammarFault.found_mem hfault, congrArg Prod.fst hsame,
      congrArg Prod.snd hsame⟩
  refine ⟨outcome, hcheck, hphases, ?_, ?_, htokens, ?_, fun d hd => ?_, fun symbol hsymbol => ?_⟩
  · rw [hlexical]
    exact Lexed.pairwise_diagnostics source
  · rw [hsyntactic, List.pairwise_map]
    refine (GrammarFault.pairwise_found source).imp_of_mem fun hd he hle => ?_
    rw [hspot _ hd, hspot _ he]
    exact hle
  · intro d hd
    rw [hsemantic] at hd
    obtain ⟨found, -, rfl⟩ := List.mem_map.mp hd
    rfl
  · rw [hphases, List.mem_append, List.mem_append] at hd
    rcases hd with (hd | hd) | hd
    · rw [hlexical] at hd
      exact IsLineOf.of_mem_diagnostics hd
    · obtain ⟨t, ht, hline, -⟩ := htokens d hd
      rw [hline]
      exact IsLineOf.of_mem_tokens ht
    · rw [hsemantic] at hd
      obtain ⟨found, hmem, rfl⟩ := List.mem_map.mp hd
      exact hfound found hmem
  · rw [symbols, htable] at hsymbol
    exact hdeclared symbol hsymbol

theorem ofSource_pointsInto_standard :
    ∃ outcome, ofSource (Loader.loadStandard {}).catalogue "broken"
        "const c = ? ;\nprocedure p(a: ); begin for := 1 to\n2 do x := a ! end" = .ok outcome ∧
      outcome.PointsInto
        "const c = ? ;\nprocedure p(a: ); begin for := 1 to\n2 do x := a ! end" :=
  ofSource_pointsInto (.standard .empty) _ _

end Outcome
end PascalCheck
