import PascalCheck.Proofs.Grammar.Completeness
import PascalCheck.Proofs.Grammar.DeclarationExactness
import PascalCheck.Proofs.Token.Spelling

/-! Which tokens are accepted, and what the trees of accepted ones have.

The reader finds no fault exactly where the tokens begin with a program of the lenient grammar; the
rest, if there is any, it leaves without a word.  The tree of an accepted source is complete up to
the ends of loops with a counter; those are present exactly where the strict grammar derives it. -/
namespace PascalCheck
namespace Grammar

theorem parse_mark (finish : EndMark) (ts : List Token) :
    parse (ts ++ [finish.token]) = program finish ts := by
  simp [parse, delimit, EndMark.token]

/-- A dot behind a program without one belongs to it. -/
theorem DerivesProgram.extend {lenient : Bool} {p : Program} {ts : List Token}
    (h : DerivesProgram lenient p ts) (rest : List Token) :
    ∃ p' ts' rest', DerivesProgram lenient p' ts' ∧ ts ++ rest = ts' ++ rest' ∧
      (kindAhead rest' = .dot → endsWithDot ts') := by
  by_cases hd : kindAhead rest = .dot ∧ ¬ endsWithDot ts
  · obtain ⟨hk, hno⟩ := hd
    obtain ⟨dot, rest', hdot, rfl⟩ := cons_of_kindAhead (by decide) hk
    cases h with
    | @program name declared b hs us ds bs es hh hu hd hb he =>
      cases he with
      | none =>
        refine ⟨_, _, rest', .program hh hu hd hb (.dot hdot), by simp, fun _ => ⟨dot, hdot, ?_⟩⟩
        simp only [← List.append_assoc]
        exact List.getLast?_concat
      | dot ht =>
        refine absurd ⟨_, ht, ?_⟩ hno
        simp only [← List.append_assoc]
        exact List.getLast?_concat
  · exact ⟨p, ts, rest, h, rfl, fun hk => by simpa [hk] using hd⟩

/-- Tokens are accepted if and only if they begin with a program. -/
theorem faults_parse_iff (finish : EndMark) (ts : List Token) :
    (parse (ts ++ [finish.token])).faults = [] ↔
      ∃ p front rest, ts = front ++ rest ∧ DerivesProgram true p front := by
  rw [parse_mark]
  constructor
  · intro h
    obtain ⟨p, front, rest, hp, rfl, -⟩ := program_of_faultless h
    exact ⟨p, front, rest, rfl, hp⟩
  · rintro ⟨p, front, rest, rfl, hp⟩
    -- The reader takes a dot behind the program, which the given derivation may leave out.
    obtain ⟨p', front', rest', hp', heq, hr⟩ := hp.extend rest
    rw [heq, program_of_derives hp' rest' hr]

/-- **Tokens are accepted as a whole if and only if they are a program.**  They are accepted in
part, and the others are dropped in silence, if and only if they are none but begin with one. -/
theorem parse_uses_all_iff_program (finish : EndMark) (ts : List Token) :
    ((parse (ts ++ [finish.token])).faults = [] ∧ (parse (ts ++ [finish.token])).used = ts.length ↔
      ∃ p, DerivesProgram true p ts) ∧
    ((parse (ts ++ [finish.token])).faults = [] ∧ (parse (ts ++ [finish.token])).used < ts.length ↔
      (¬ ∃ p, DerivesProgram true p ts) ∧
        ∃ p front rest, ts = front ++ rest ∧ DerivesProgram true p front) := by
  have hall : (parse (ts ++ [finish.token])).faults = [] ∧
      (parse (ts ++ [finish.token])).used = ts.length ↔ ∃ p, DerivesProgram true p ts := by
    rw [parse_mark]
    constructor
    · rintro ⟨hf, hu⟩
      obtain ⟨p, front, rest, hp, rfl, hs⟩ := program_of_faultless hf
      have hrest : rest = [] := by
        rw [hs] at hu
        simpa using hu
      exact ⟨p, by simpa [hrest] using hp⟩
    · rintro ⟨p, hp⟩
      have hs : program finish ts = ⟨p, ts.length, []⟩ := by
        simpa using program_of_derives hp [] (by simp)
      rw [hs]
      exact ⟨rfl, rfl⟩
  refine ⟨hall, ?_⟩
  rw [← hall, ← faults_parse_iff finish]
  have hle : (parse (ts ++ [finish.token])).faults = [] →
      -- What was read stands in front of the rest, so no more is used than there is.
      (parse (ts ++ [finish.token])).used ≤ ts.length := by
    rw [parse_mark]
    intro hf
    obtain ⟨p, front, rest, hp, rfl, hs⟩ := program_of_faultless hf
    simp [hs]
  constructor
  · rintro ⟨hf, hu⟩
    exact ⟨fun h => by omega, hf⟩
  · rintro ⟨hne, hf⟩
    have hne' : (parse (ts ++ [finish.token])).used ≠ ts.length := fun h => hne ⟨hf, h⟩
    have := hle hf
    exact ⟨hf, by omega⟩

/-- **The tree of an accepted source is complete, up to the ends of loops with a counter.**  These
are present too if and only if the strict grammar derives the tree from the tokens that were
used. -/
theorem parse_complete_iff_strict (source : String) :
    let lexed := Lexed.ofSource source
    let parsed := parse lexed.tokens
    let used := lexed.lexemes.take parsed.used
    (parsed.faults = [] ↔
      parsed.value.isComplete true = true ∧ DerivesProgram true parsed.value used) ∧
    (parsed.faults = [] ∧ parsed.value.isComplete false = true ↔
      DerivesProgram false parsed.value used) := by
  intro lexed parsed used
  let finish : EndMark := ⟨"", lexed.finish.offset, lexed.finish.line, lexed.finish.column⟩
  have hspelled : IsSpelled used := fun t ht =>
    Lexed.text_ne_of_mem (List.mem_of_mem_take ht)
  have hparse : parsed = program finish lexed.lexemes := parse_mark finish lexed.lexemes
  have hderives : parsed.faults = [] → DerivesProgram true parsed.value used := by
    intro hf
    rw [hparse] at hf
    obtain ⟨p, front, rest, hp, hts, hs⟩ := program_of_faultless hf
    rw [← hts, ← hparse] at hs
    simp only [used, hs, hts, List.take_left]
    exact hp
  have hfaults : DerivesProgram true parsed.value used → parsed.faults = [] := by
    intro hp
    exact (faults_parse_iff finish lexed.lexemes).mpr
      ⟨_, used, lexed.lexemes.drop parsed.used, (List.take_append_drop _ _).symm, hp⟩
  constructor
  · constructor
    · intro hf
      exact ⟨(hderives hf).isComplete hspelled (fun _ => rfl), hderives hf⟩
    · exact fun h => hfaults h.2
  · constructor
    · exact fun h => (hderives h.1).of_isComplete h.2
    · intro hp
      -- The lenient grammar derives all that the strict one does.
      have hcomplete : parsed.value.isComplete true = true := hp.isComplete hspelled (fun _ => rfl)
      exact ⟨hfaults (hp.of_isComplete hcomplete), hp.isComplete hspelled (by simp)⟩

end Grammar
end PascalCheck
