import PascalCheck.Proofs.Grammar.Acceptance
import PascalCheck.Proofs.Printing.StatementWriting

/-! Reading undoes printing.

The grammar derives a printed program, lines aside, from the tokens that write it, and the reader
reads back what the grammar derives; so it reads a printed program back, and every other way to
write it as well. -/
namespace PascalCheck
open Grammar

/-! ### Declarations -/

theorem TypeSpec.namesType_nameKind (name : String) : namesType (nameKind name) = true := by
  unfold nameKind
  split
  next word _ =>
    split
    next h => exact h
    next => rfl
  next => rfl

/-- A type is all there is to a specification of it, so that it is read back as it is. -/
theorem TypeSpec.isWritten_print {spec : TypeSpec} (h : spec.isWellFormed = true) :
    IsWritten DerivesType id spec spec.print := by
  obtain ⟨name, isArray⟩ := spec
  have hlower : Text.lower name = name := by simpa [isWellFormed] using h
  have hname : ∀ t : Token, t.lexeme = ⟨nameKind name, name⟩ → DerivesType ⟨name, false⟩ [t] := by
    intro t ht
    obtain ⟨hk, rfl⟩ := Lexeme.mk.inj ht
    have hd := DerivesType.name (t := t) (hk ▸ namesType_nameKind t.text)
    rwa [hlower] at hd
  intro ts hts
  refine ⟨_, rfl, ?_⟩
  cases isArray with
  | false =>
    obtain ⟨t, rest, rfl, ht, hrest⟩ := List.map_eq_cons_iff.mp hts
    obtain rfl := List.map_eq_nil_iff.mp hrest
    exact hname t ht
  | true =>
    obtain ⟨word, ts₁, rfl, hw, hts₁⟩ := List.map_eq_cons_iff.mp hts
    obtain ⟨opening, ts₂, rfl, ho, hts₂⟩ := List.map_eq_cons_iff.mp hts₁
    obtain ⟨lower, ts₃, rfl, hl, hts₃⟩ := List.map_eq_cons_iff.mp hts₂
    obtain ⟨dots, ts₄, rfl, hd, hts₄⟩ := List.map_eq_cons_iff.mp hts₃
    obtain ⟨upper, ts₅, rfl, hu, hts₅⟩ := List.map_eq_cons_iff.mp hts₄
    obtain ⟨closing, ts₆, rfl, hc, hts₆⟩ := List.map_eq_cons_iff.mp hts₅
    obtain ⟨ofWord, ts₇, rfl, hof, hts₇⟩ := List.map_eq_cons_iff.mp hts₆
    obtain ⟨t, rest, rfl, ht, hrest⟩ := List.map_eq_cons_iff.mp hts₇
    obtain rfl := List.map_eq_nil_iff.mp hrest
    -- Any bounds would do: the grammar only keeps brackets out of them.
    have hin : IsInside [lower, dots, upper] := by
      intro u hu'
      have hk : u.kind = .integerLiteral ∨ u.kind = .dotDot := by
        simp only [List.mem_cons, List.not_mem_nil, or_false] at hu'
        rcases hu' with rfl | rfl | rfl
        · exact .inl (congrArg Lexeme.kind hl)
        · exact .inr (Token.kind_of_mark hd)
        · exact .inl (congrArg Lexeme.kind hu)
      rcases hk with hk | hk <;> simp [hk]
    exact .array (Token.kind_of_mark hw) (Token.kind_of_mark ho) hin (Token.kind_of_mark hc)
      (Token.kind_of_mark hof) (hname t ht)

theorem DeclaredName.isWritten_print (name : DeclaredName) :
    IsWritten DerivesName unplaced name name.print := by
  obtain ⟨text, line⟩ := name
  intro ts hts
  obtain ⟨t, rest, rfl, ht, hrest⟩ := List.map_eq_cons_iff.mp hts
  obtain rfl := List.map_eq_nil_iff.mp hrest
  obtain ⟨hk, rfl⟩ := Token.of_name ht
  exact ⟨⟨t.text, t.line⟩, rfl, .name hk⟩

/-- A declaration of variables is written as its names, a colon and its type. -/
theorem VarDeclaration.isWritten_print {declaration : VarDeclaration}
    (h : declaration.isWellFormed = true) :
    IsWritten DerivesVariables unplaced declaration declaration.print := by
  obtain ⟨names, spec, line⟩ := declaration
  simp only [isWellFormed, Bool.and_eq_true, decide_eq_true_eq] at h
  intro ts hts
  obtain ⟨us, rest, rfl, hus, hrest⟩ := List.map_eq_append_iff.mp hts
  obtain ⟨colon, vs, rfl, hc, hvs⟩ := List.map_eq_cons_iff.mp hrest
  obtain ⟨ws, ls, rfl, hws, hls⟩ := List.map_eq_append_iff.mp hvs
  obtain ⟨semicolon, last, rfl, hs, hlast⟩ := List.map_eq_cons_iff.mp hls
  obtain rfl := List.map_eq_nil_iff.mp hlast
  obtain ⟨ns, huns, hdns⟩ := isWritten_joined h.1
    (fun n _ => DeclaredName.isWritten_print n) us hus
  obtain ⟨spec', rfl, hds⟩ := TypeSpec.isWritten_print h.2 ws hws
  cases ns with
  -- The line of the declaration is that of its first name.
  | nil => cases hdns
  | cons n ns =>
    exact ⟨⟨n :: ns, spec', n.line⟩, by simp [unplaced, ← huns],
      .declaration hdns (Token.kind_of_mark hc) hds (Token.kind_of_mark hs)⟩

/-- A constant is written with the equals sign, which is one of the relations. -/
theorem ConstDeclaration.isWritten_print {declaration : ConstDeclaration}
    (h : declaration.isWellFormed = true) :
    IsWritten DerivesConstant unplaced declaration declaration.print := by
  obtain ⟨name, value, line⟩ := declaration
  intro ts hts
  obtain ⟨t, rest, rfl, ht, hrest⟩ := List.map_eq_cons_iff.mp hts
  obtain ⟨hk, rfl⟩ := Token.of_name ht
  obtain ⟨equals, us, rfl, he, hus⟩ := List.map_eq_cons_iff.mp hrest
  obtain ⟨hke, hte⟩ := Lexeme.mk.inj he
  obtain ⟨vs, ls, rfl, hvs, hls⟩ := List.map_eq_append_iff.mp hus
  obtain ⟨semicolon, last, rfl, hs, hlast⟩ := List.map_eq_cons_iff.mp hls
  obtain rfl := List.map_eq_nil_iff.mp hlast
  obtain ⟨v, huv, hdv⟩ := (value.isWritten_print h).expression vs hvs
  exact ⟨⟨t.text, v, t.line⟩, by simp [unplaced, huv],
    .constant hk hke hte hdv (Token.kind_of_mark hs)⟩

/-- A parameter is a group of one. -/
theorem Parameter.isWritten_print {parameter : Parameter} (h : parameter.isWellFormed = true) :
    IsWritten (fun p ts => DerivesGroup [p] ts) unplaced parameter parameter.print := by
  obtain ⟨name, spec, modifier, line⟩ := parameter
  simp only [isWellFormed, Bool.and_eq_true, decide_eq_true_eq, List.mem_cons,
    List.not_mem_nil, or_false] at h
  intro ts hts
  obtain ⟨ms, rest, rfl, hms, hrest⟩ := List.map_eq_append_iff.mp hts
  obtain ⟨t, us, rfl, ht, hus⟩ := List.map_eq_cons_iff.mp hrest
  obtain ⟨hk, rfl⟩ := Token.of_name ht
  obtain ⟨colon, vs, rfl, hc, hvs⟩ := List.map_eq_cons_iff.mp hus
  obtain ⟨spec', rfl, hds⟩ := TypeSpec.isWritten_print h.2 vs hvs
  have hm : DerivesModifier modifier ms := by
    rcases h.1 with rfl | hword
    · obtain rfl : ms = [] := List.map_eq_nil_iff.mp hms
      exact .none
    · obtain ⟨text, rfl⟩ : ∃ text, modifier = some text := by
        rcases hword with rfl | rfl <;> exact ⟨_, rfl⟩
      obtain ⟨word, last, rfl, hw, hlast⟩ := List.map_eq_cons_iff.mp hms
      obtain rfl := List.map_eq_nil_iff.mp hlast
      have hspelling : text = Keyword.var.text ∨ text = Keyword.const.text := by
        simpa [Keyword.text] using hword
      obtain ⟨hkw, rfl⟩ := Token.of_wordOf hw hspelling
      exact .word hkw
  have hn : Separated .comma DerivesName [⟨t.text, t.line⟩] [t] := .single (.name hk)
  exact ⟨⟨t.text, spec', modifier, t.line⟩, rfl, .group hm hn (Token.kind_of_mark hc) hds⟩

/-- Each parameter is a group of its own, and no parameters are written as nothing. -/
theorem isWritten_parameters {parameters : List Parameter}
    (h : ∀ p ∈ parameters, p.isWellFormed = true) :
    IsWritten DerivesParameters (List.map Parameter.unplaced) parameters
      (Lexeme.parenthesized .semicolon (parameters.map Parameter.print)) := by
  intro ts hts
  obtain ⟨ps, hups, hdps⟩ := isWritten_parenthesized
    (fun p hp => Parameter.isWritten_print (h p hp)) ts hts
  refine ⟨ps, hups, ps.map fun p => [p], ?_, ?_⟩
  · rw [← List.flatMap_def, List.flatMap_singleton']
  · exact hdps.map _ fun _ _ hd => hd.map _ fun _ _ => id

/-- A body that is there is written between its words. -/
theorem Body.isWritten_print {body : Body} (h : body.isWellFormed = true) :
    IsWritten (DerivesBody false) unplaced body body.print := by
  intro ts hts
  cases body with
  | missing => cases h
  | block statements line =>
    obtain ⟨word, us, endWord, rfl, hw, hus, he⟩ := exists_of_between hts
    obtain ⟨ns, huns, hdns⟩ :=
      Node.isWritten_statements (Node.isWritten_printEach statements h) us hus
    exact ⟨.block ns word.line, by simp [unplaced, Node.allUnplaced_eq_map, huns],
      .block hw hdns he⟩

namespace Node

/-- A section of declarations is written behind its word. -/
theorem isWritten_printSection {n : Node} (h : n.isSection = true) :
    IsWritten DerivesSection unplaced n n.printSection := by
  intro ts hts
  cases n with
  | varSection declarations line =>
    simp only [isSection, List.all_eq_true] at h
    obtain ⟨word, rest, rfl, hw, hrest⟩ := List.map_eq_cons_iff.mp hts
    obtain ⟨vs, huvs, hdvs⟩ := isWritten_sequence
      (fun v hv => VarDeclaration.isWritten_print (h v hv)) rest hrest
    exact ⟨.varSection vs word.line, by simp [unplaced, huvs],
      .vars (Token.kind_of_mark hw) hdvs⟩
  | constSection declarations line =>
    simp only [isSection, List.all_eq_true] at h
    obtain ⟨word, rest, rfl, hw, hrest⟩ := List.map_eq_cons_iff.mp hts
    obtain ⟨cs, hucs, hdcs⟩ := isWritten_sequence
      (fun c hc => ConstDeclaration.isWritten_print (h c hc)) rest hrest
    exact ⟨.constSection cs word.line, by simp [unplaced, hucs],
      .consts (Token.kind_of_mark hw) hdcs⟩
  | _ => cases h

/-- A function is written as its head, its sections and its body. -/
theorem isWritten_function (name : String) {parameters : List Parameter} {result : TypeSpec}
    {declarations : List Node} {body : Body} (line : Int)
    (hp : ∀ p ∈ parameters, p.isWellFormed = true) (hr : result.isWellFormed = true)
    (hd : ∀ n ∈ declarations, n.isSection = true) (hb : body.isWellFormed = true) :
    IsWritten (DerivesRoutine false) unplaced
      (function name parameters result declarations body line)
      (function name parameters result declarations body line).printDeclaration := by
  intro ts hts
  obtain ⟨word, ts₁, rfl, hw, hts₁⟩ := List.map_eq_cons_iff.mp hts
  obtain ⟨t, ts₂, rfl, ht, hts₂⟩ := List.map_eq_cons_iff.mp hts₁
  obtain ⟨hk, rfl⟩ := Token.of_name ht
  obtain ⟨ps, ts₃, rfl, hps, hts₃⟩ := List.map_eq_append_iff.mp hts₂
  obtain ⟨colon, ts₄, rfl, hc, hts₄⟩ := List.map_eq_cons_iff.mp hts₃
  obtain ⟨rs, ts₅, rfl, hrs, hts₅⟩ := List.map_eq_append_iff.mp hts₄
  obtain ⟨semicolon, ts₆, rfl, hs, hts₆⟩ := List.map_eq_cons_iff.mp hts₅
  obtain ⟨ss, ts₇, rfl, hss, hts₇⟩ := List.map_eq_append_iff.mp hts₆
  obtain ⟨bs, ls, rfl, hbs, hls⟩ := List.map_eq_append_iff.mp hts₇
  obtain ⟨last, empty, rfl, hl, hempty⟩ := List.map_eq_cons_iff.mp hls
  obtain rfl := List.map_eq_nil_iff.mp hempty
  obtain ⟨parameters', hup, hdp⟩ := isWritten_parameters hp ps hps
  obtain ⟨result', rfl, hdr⟩ := TypeSpec.isWritten_print hr rs hrs
  obtain ⟨sections, hus, hds⟩ :=
    isWritten_sequence (fun n hn => isWritten_printSection (hd n hn)) ss hss
  obtain ⟨body', hub, hdb⟩ := Body.isWritten_print hb bs hbs
  exact ⟨.function t.text parameters' result' sections body' word.line,
    by simp [unplaced, allUnplaced_eq_map, hup, hus, hub],
    .function (Token.kind_of_mark hw) hk hdp (Token.kind_of_mark hc) hdr (Token.kind_of_mark hs)
      hds hdb (Token.kind_of_mark hl)⟩

theorem isWritten_procedure (name : String) {parameters : List Parameter}
    {declarations : List Node} {body : Body} (line : Int)
    (hp : ∀ p ∈ parameters, p.isWellFormed = true)
    (hd : ∀ n ∈ declarations, n.isSection = true) (hb : body.isWellFormed = true) :
    IsWritten (DerivesRoutine false) unplaced (procedure name parameters declarations body line)
      (procedure name parameters declarations body line).printDeclaration := by
  intro ts hts
  obtain ⟨word, ts₁, rfl, hw, hts₁⟩ := List.map_eq_cons_iff.mp hts
  obtain ⟨t, ts₂, rfl, ht, hts₂⟩ := List.map_eq_cons_iff.mp hts₁
  obtain ⟨hk, rfl⟩ := Token.of_name ht
  obtain ⟨ps, ts₃, rfl, hps, hts₃⟩ := List.map_eq_append_iff.mp hts₂
  obtain ⟨semicolon, ts₄, rfl, hs, hts₄⟩ := List.map_eq_cons_iff.mp hts₃
  obtain ⟨ss, ts₅, rfl, hss, hts₅⟩ := List.map_eq_append_iff.mp hts₄
  obtain ⟨bs, ls, rfl, hbs, hls⟩ := List.map_eq_append_iff.mp hts₅
  obtain ⟨last, empty, rfl, hl, hempty⟩ := List.map_eq_cons_iff.mp hls
  obtain rfl := List.map_eq_nil_iff.mp hempty
  obtain ⟨parameters', hup, hdp⟩ := isWritten_parameters hp ps hps
  obtain ⟨sections, hus, hds⟩ :=
    isWritten_sequence (fun n hn => isWritten_printSection (hd n hn)) ss hss
  obtain ⟨body', hub, hdb⟩ := Body.isWritten_print hb bs hbs
  exact ⟨.procedure t.text parameters' sections body' word.line,
    by simp [unplaced, allUnplaced_eq_map, hup, hus, hub],
    .procedure (Token.kind_of_mark hw) hk hdp (Token.kind_of_mark hs) hds hdb
      (Token.kind_of_mark hl)⟩

theorem isWritten_printDeclaration {n : Node} (h : n.isDeclaration = true) :
    IsWritten (fun n ts => DerivesSection n ts ∨ DerivesRoutine false n ts) unplaced n
      n.printDeclaration := by
  cases n with
  | function name parameters result declarations body line =>
    simp only [isDeclaration, Bool.and_eq_true, List.all_eq_true] at h
    exact (isWritten_function name line h.1.1.1 h.1.1.2 h.1.2 h.2).imp fun _ _ => .inr
  | procedure name parameters declarations body line =>
    simp only [isDeclaration, Bool.and_eq_true, List.all_eq_true] at h
    exact (isWritten_procedure name line h.1.1 h.1.2 h.2).imp fun _ _ => .inr
  | varSection declarations line =>
    have hs : (varSection declarations line).isSection = true := h
    exact (isWritten_printSection hs).imp fun _ _ => .inl
  | constSection declarations line =>
    have hs : (constSection declarations line).isSection = true := h
    exact (isWritten_printSection hs).imp fun _ _ => .inl
  | _ => cases h

end Node

theorem Grammar.DerivesDeclarations.of_sequence {lenient : Bool} {ns : List Node}
    {ts : List Token}
    (h : Sequence (fun n ts => DerivesSection n ts ∨ DerivesRoutine lenient n ts) ns ts) :
    DerivesDeclarations lenient ns ts := by
  induction h with
  | nil => exact .nil
  | cons hn _ ih =>
    rcases hn with hn | hn
    · exact .section hn ih
    · exact .routine hn ih

namespace Program

/-- **A well-formed program is written by its lexemes.** -/
theorem isWritten_print {p : Program} (h : p.isWellFormed = true) :
    IsWritten (DerivesProgram false) unplaced p p.print := by
  simp only [isWellFormed, Bool.and_eq_true, List.all_eq_true] at h
  intro ts hts
  obtain ⟨word, ts₁, rfl, hw, hts₁⟩ := List.map_eq_cons_iff.mp hts
  obtain ⟨t, ts₂, rfl, ht, hts₂⟩ := List.map_eq_cons_iff.mp hts₁
  obtain ⟨hk, htext⟩ := Token.of_name ht
  obtain ⟨semicolon, ts₃, rfl, hs, hts₃⟩ := List.map_eq_cons_iff.mp hts₂
  obtain ⟨ds, ts₄, rfl, hds, hts₄⟩ := List.map_eq_append_iff.mp hts₃
  obtain ⟨bs, ls, rfl, hbs, hls⟩ := List.map_eq_append_iff.mp hts₄
  obtain ⟨dot, empty, rfl, hdot, hempty⟩ := List.map_eq_cons_iff.mp hls
  obtain rfl := List.map_eq_nil_iff.mp hempty
  obtain ⟨declarations, hud, hdd⟩ :=
    isWritten_sequence (fun n hn => Node.isWritten_printDeclaration (h.1 n hn)) ds hds
  obtain ⟨body, hub, hdb⟩ := Body.isWritten_print h.2 bs hbs
  exact ⟨_, by simp [unplaced, Node.allUnplaced_eq_map, htext, hud, hub],
    .program (.plain (Token.kind_of_mark hw) hk (Token.kind_of_mark hs)) .none (.of_sequence hdd)
      hdb (.dot (Token.kind_of_mark hdot))⟩

end Program

/-- What the grammar derives is read back, and nothing is left of the tokens. -/
theorem Grammar.parse_of_derives {lenient : Bool} {p : Program} {ts : List Token}
    (h : DerivesProgram lenient p ts) (finish : EndMark) :
    parse (ts ++ [finish.token]) = ⟨p, ts.length, []⟩ := by
  rw [parse_mark]
  simpa using program_of_derives h [] (by simp)

/-- **Reading undoes printing.**  Tokens that write a well-formed program as it is printed are
accepted as a whole and give the program, lines aside; and so are the tokens of every other way to
write it, whatever parentheses and signs stand in them and whatever the tree knows nothing of. -/
theorem Grammar.parse_print {p : Program} (h : p.isWellFormed = true) (finish : EndMark)
    (ts : List Token) :
    (ts.map Token.lexeme = p.print →
      ∃ q, q.unplaced = p.unplaced ∧ parse (ts ++ [finish.token]) = ⟨q, ts.length, []⟩) ∧
    ((∃ q, q.unplaced = p.unplaced ∧ DerivesProgram false q ts) →
      ∃ q, q.unplaced = p.unplaced ∧ parse (ts ++ [finish.token]) = ⟨q, ts.length, []⟩) := by
  have hread : (∃ q, q.unplaced = p.unplaced ∧ DerivesProgram false q ts) →
      ∃ q, q.unplaced = p.unplaced ∧ parse (ts ++ [finish.token]) = ⟨q, ts.length, []⟩ := by
    rintro ⟨q, hq, hd⟩
    exact ⟨q, hq, parse_of_derives hd finish⟩
  exact ⟨fun hts => hread (p.isWritten_print h ts hts), hread⟩

/-- A difference under a minus sign, compared in front of an `else`. -/
def countdown : Program :=
  ⟨"countdown", [.varSection [⟨[⟨"i", 2⟩], ⟨"integer", false⟩, 2⟩] 2],
    .block [.ifThen
      (.binary "<" (.unary "-" (.binary "-" (.identifier "i" 3) (.literal "1" "integer" 3) 3) 3)
        (.literal "0" "integer" 3) 3)
      (.whileDo (.unary "not" (.call "done" [] 4) 4) (.call "step" [.identifier "i" 4] 4) 4)
      (.write "writeln" [] 5) 3] 2, 1⟩

theorem Grammar.parse_print_countdown :
    let ts : List Token := countdown.print.map fun l => ⟨l.kind, l.text, 0, 1, 1⟩
    let finish : EndMark := ⟨"", 0, 1, 1⟩
    countdown.isWellFormed = true ∧
    ∃ q, q.unplaced = countdown.unplaced ∧ parse (ts ++ [finish.token]) = ⟨q, ts.length, []⟩ := by
  intro ts finish
  have h : countdown.isWellFormed = true := by decide
  exact ⟨h, (parse_print h finish ts).1 (by decide)⟩

end PascalCheck
