import PascalCheck.Proofs.Grammar.StatementExactness
import PascalCheck.Proofs.Grammar.DeclarationReading

/-! Declarations and programs that are read without a fault are those that the grammar derives.

Two rules pass over tokens up to a closing one and do not complain at the end of the tokens: the
length of a string type and the list of units.  Neither ends a program, so the rule that goes on
behind them finds a fault there. -/
namespace PascalCheck
namespace Grammar

variable {finish : EndMark}

/-! ### Names -/

theorem declaredName_of_faultless {tokens : List Token}
    (h : (declaredName finish tokens).faults = []) :
    IsExact (declaredName finish) (fun ns ts => ∃ n, ns = [n] ∧ DerivesName n ts) tokens := by
  have hf : (expect finish .identifier tokens).faults = [] := by simpa [declaredName] using h
  obtain ⟨t, rest, ht, rfl⟩ := expect_of_faultless hf
  exact ⟨_, [t], rest, ⟨_, rfl, .name ht⟩, rfl, by simp [declaredName, expect_cons ht]⟩

/-- A list of names is exact up to a missing name at the end of the tokens. -/
theorem nameList_of_faultless {tokens : List Token} (h : (nameList finish tokens).faults = []) :
    IsExactBeforeEnd (nameList finish) (Separated .comma DerivesName) tokens := by
  simp [nameList] at h
  obtain ⟨_, ts, after, ⟨n, rfl, hn⟩, rfl, hs⟩ := declaredName_of_faultless h.1
  simp [hs] at h
  obtain ⟨ns, rs, rest, ⟨_, rfl, hns⟩, rfl, hr⟩ | hend :=
    isLoop_moreNames.exact (by decide) (fun _ hf => .inl (declaredName_of_faultless hf)) h
  · refine .inl ⟨n :: ns, ts ++ rs, rest, hns n ts hn, by simp, ?_⟩
    simp [nameList, hs, hr]
  · exact .inr (by simpa [nameList, hs] using hend)

/-! ### Types -/

/-- What is passed over inside of brackets ends with the brackets or with the tokens. -/
theorem bounds_eq (tokens : List Token) :
    ∃ ts rest, IsInside ts ∧ tokens = ts ++ rest ∧ bounds (ts ++ rest) = ⟨(), ts.length, []⟩ ∧
      (kindAhead rest = .rightBracket ∨ kindAhead rest = .endOfInput) := by
  obtain ⟨ts, rest, hts, rfl, hw, hrest⟩ :=
    exists_takeWhile (fun t => t.kind != .rightBracket && t.kind != .endOfInput) tokens
  refine ⟨ts, rest, by simpa [IsInside] using hts, rfl, by simp [bounds, hw], ?_⟩
  cases rest with
  | nil => exact .inr rfl
  | cons t after =>
    have ht := hrest t after rfl
    simp only [Bool.and_eq_false_iff, bne_eq_false_iff_eq] at ht
    exact ht

/-- The name of a type is exact, but the length of a string type may run into the end of the tokens.
-/
theorem typeName_of_faultless {tokens : List Token} (h : (typeName finish tokens).faults = []) :
    IsExactBeforeEnd (typeName finish) (fun spec ts => DerivesType spec ts) tokens := by
  match tokens with
  | [] => exact .inr rfl
  | t :: rest =>
    by_cases hn : namesType t.kind = true
    · by_cases hs : Text.lower t.text = "string" ∧ kindAhead rest = .leftBracket
      · obtain ⟨opening, inside, ho, rfl⟩ := cons_of_kindAhead (by decide) hs.2
        obtain ⟨ts, after, hin, rfl, hb, hafter⟩ := bounds_eq inside
        obtain hbracket | hend := hafter
        · obtain ⟨closing, after, hc, rfl⟩ := cons_of_kindAhead (by decide) hbracket
          refine .inl ⟨_, _, after, .string hn hs.1 ho hin hc, by simp, ?_⟩
          simp [typeName, hn, hs.1, startsWith, ho, hb, accept_cons hc]
          omega
        · refine .inr ?_
          -- The bracket is missing, and the tokens ended while it was looked for.
          have ha : accept .rightBracket after = ⟨false, 0, []⟩ := accept_of_ne (by simp [hend])
          simpa [typeName, hn, hs.1, startsWith, ho, hb, ha] using hend
      · refine .inl ⟨_, [t], rest, .name hn, rfl, ?_⟩
        simp [typeName, hn, startsWith_eq, hs]
    · simp [typeName, hn, refuse] at h

/-- A type is exact where the element type of its innermost array is. -/
theorem typeSpec_of_faultless {tokens : List Token} (h : (typeSpec finish tokens).faults = []) :
    IsExactBeforeEnd (typeSpec finish) DerivesType tokens := by
  generalize hn : tokens.length = n
  induction n using Nat.strongRecOn generalizing tokens with
  | ind n ih =>
    by_cases ha : kindAhead tokens = .keyword .array
    · obtain ⟨word, inside, hw, rfl⟩ := cons_of_kindAhead (by decide) ha
      rw [typeSpec] at h
      simp [hw] at h
      obtain ⟨opening, inside, ho, rfl⟩ := expect_of_faultless h.1
      obtain ⟨bs, after, hin, rfl, hb, -⟩ := bounds_eq inside
      simp [expect_cons ho, hb, Nat.add_assoc] at h
      obtain ⟨closing, after, hc, rfl⟩ := expect_of_faultless h.1
      simp [expect_cons hc] at h
      obtain ⟨ofWord, inside, hof, rfl⟩ := expect_of_faultless h.1
      simp [expect_cons hof] at h
      have hlen : inside.length < n := by simp at hn; omega
      obtain ⟨spec, ts, rest, hs, rfl, hr⟩ | hend := ih inside.length hlen h rfl
      · refine .inl ⟨_, _, rest, .array hw ho hin hc hof hs, by simp, ?_⟩
        simp [typeSpec_array hw ho hin hc hof, hr]
        omega
      · refine .inr ?_
        rw [typeSpec_array hw ho hin hc hof]
        simpa [Nat.add_assoc] using hend
    · have heq : typeSpec finish tokens = typeName finish tokens := by
        cases tokens with
        | nil => rw [typeSpec]
        | cons t rest => rw [typeSpec]; exact if_neg ha
      rw [heq] at h
      obtain ⟨spec, ts, rest, hs, rfl, hr⟩ | hend := typeName_of_faultless h
      · exact .inl ⟨spec, ts, rest, hs, rfl, heq.trans hr⟩
      · exact .inr (by rwa [heq])

/-! ### Sections -/

/-- The equals sign of a constant is the one relation that is accepted there. -/
theorem equalsSign_of_faultless {tokens : List Token}
    (h : (equalsSign finish tokens).faults = []) :
    ∃ t rest, t.kind = .relation ∧ t.text = "=" ∧ tokens = t :: rest := by
  cases tokens with
  | nil => simp [equalsSign, refuse] at h
  | cons t rest =>
    by_cases ht : t.kind = .relation ∧ t.text = "="
    · exact ⟨t, rest, ht.1, ht.2, rfl⟩
    · simp [equalsSign, ht, refuse] at h

/-- Each constant of a section is exact, and the section ends where no name is next. -/
theorem constSection_of_faultless {tokens : List Token}
    (h : (constSection finish tokens).faults = []) :
    IsExact (constSection finish) (Sequence DerivesConstant) tokens := by
  generalize hn : tokens.length = n
  induction n using Nat.strongRecOn generalizing tokens with
  | ind n ih =>
    by_cases hname : kindAhead tokens = .identifier
    · obtain ⟨name, inside, hi, rfl⟩ := cons_of_kindAhead (by decide) hname
      rw [constSection] at h
      simp [hi] at h
      obtain ⟨equals, inside, hk, ht, rfl⟩ := equalsSign_of_faultless h.1
      simp [equalsSign, hk, ht] at h
      obtain ⟨e, ts, after, he, rfl, hs⟩ := expression_of_faultless h.1
      simp [hs] at h
      obtain ⟨semicolon, after, hsc, rfl⟩ := expect_of_faultless h.1
      simp [expect_cons hsc, Nat.add_assoc] at h
      obtain ⟨cs, rs, rest, hcs, rfl, hr⟩ := ih after.length (by simp at hn; omega) h rfl
      have hc : DerivesConstant _ _ := .constant hi hk ht he hsc
      refine ⟨_, _, rest, .cons hc hcs, by simp, ?_⟩
      rw [List.append_assoc, constSection_cons hc, hr]
      simp only [Step.mk_as, Step.mk_past, List.length_append]
    · exact ⟨[], [], tokens, .nil, rfl, constSection_of_end hname⟩

/-- Names that are read where one is next are at least one. -/
theorem names_ne_nil {ns : List DeclaredName} {ts : List Token}
    (h : Separated .comma DerivesName ns ts) : ∃ n ns', ns = n :: ns' := by
  cases h with
  | single _ => exact ⟨_, _, rfl⟩
  | cons _ _ _ => exact ⟨_, _, rfl⟩

/-- Each declaration of a section is exact, since its colon and semicolon are looked for behind the
rules that may run into the end. -/
theorem varSection_of_faultless {tokens : List Token}
    (h : (varSection finish tokens).faults = []) :
    IsExact (varSection finish) (Sequence DerivesVariables) tokens := by
  generalize hn : tokens.length = n
  induction n using Nat.strongRecOn generalizing tokens with
  | ind n ih =>
    by_cases hname : kindAhead tokens = .identifier
    · rw [varSection_of_name hname] at h
      simp [varDeclaration] at h
      obtain ⟨ns, ts, after, hns, rfl, hs⟩ :=
        -- The tokens do not end with the names or the type, since more is expected and found.
        (nameList_of_faultless h.1).of_expect (by decide) h.2.1
      simp [hs] at h
      obtain ⟨colon, after, hc, rfl⟩ := expect_of_faultless h.1
      simp [expect_cons hc, Nat.add_assoc] at h
      obtain ⟨spec, us, after, ht, rfl, hs'⟩ :=
        (typeSpec_of_faultless h.1).of_expect (by decide) h.2.1
      simp [hs'] at h
      obtain ⟨semicolon, after, hsc, rfl⟩ := expect_of_faultless h.1
      simp [expect_cons hsc] at h
      obtain ⟨vs, rs, rest, hvs, rfl, hr⟩ := ih after.length (by simp at hn; omega) h rfl
      obtain ⟨name, ns, rfl⟩ := names_ne_nil hns
      have hv : DerivesVariables _ _ := .declaration hns hc ht hsc
      refine ⟨_, _, rest, .cons hv hvs, by simp, ?_⟩
      rw [List.append_assoc, varSection_cons hv, hr]
      simp only [Step.mk_as, Step.mk_past, List.length_append]
    · exact ⟨[], [], tokens, .nil, rfl, varSection_of_end hname⟩

/-- The sections of a routine are exact, in whatever order they stand. -/
theorem localSections_of_faultless {tokens : List Token}
    (h : (localSections finish tokens).faults = []) :
    IsExact (localSections finish) (Sequence DerivesSection) tokens := by
  generalize hn : tokens.length = n
  induction n using Nat.strongRecOn generalizing tokens with
  | ind n ih =>
    by_cases hvar : kindAhead tokens = .keyword .var
    · obtain ⟨word, inside, hw, rfl⟩ := cons_of_kindAhead (by decide) hvar
      rw [localSections] at h
      simp [hw] at h
      obtain ⟨vs, ts, after, hvs, rfl, hs⟩ := varSection_of_faultless h.1
      simp [hs] at h
      obtain ⟨ns, rs, rest, hns, rfl, hr⟩ := ih after.length (by simp at hn; omega) h rfl
      refine ⟨_, _, rest, .cons (.vars hw hvs) hns, by simp, ?_⟩
      rw [List.append_assoc, List.cons_append, localSections]
      simp [hw, hs, hr]
      omega
    · by_cases hconst : kindAhead tokens = .keyword .const
      · obtain ⟨word, inside, hw, rfl⟩ := cons_of_kindAhead (by decide) hconst
        rw [localSections] at h
        simp [hw] at h
        obtain ⟨cs, ts, after, hcs, rfl, hs⟩ := constSection_of_faultless h.1
        simp [hs] at h
        obtain ⟨ns, rs, rest, hns, rfl, hr⟩ := ih after.length (by simp at hn; omega) h rfl
        refine ⟨_, _, rest, .cons (.consts hw hcs) hns, by simp, ?_⟩
        rw [List.append_assoc, List.cons_append, localSections]
        simp [hw, hs, hr]
        omega
      · exact ⟨[], [], tokens, .nil, rfl, localSections_of_end hvar hconst⟩

/-! ### Parameters -/

theorem modifier_eq (tokens : List Token) :
    IsExact modifier DerivesModifier tokens := by
  cases tokens with
  | nil => exact ⟨none, [], [], .none, rfl, rfl⟩
  | cons t rest =>
    by_cases ht : t.kind = .keyword .var ∨ t.kind = .keyword .const
    · exact ⟨_, [t], rest, .word ht, rfl, if_pos ht⟩
    · exact ⟨none, [], t :: rest, .none, rfl, if_neg ht⟩

/-- A group of parameters is exact up to the type it ends with. -/
theorem parameterGroup_of_faultless {tokens : List Token}
    (h : (parameterGroup finish tokens).faults = []) :
    IsExactBeforeEnd (parameterGroup finish) DerivesGroup tokens := by
  obtain ⟨m, ms, after, hm, rfl, hs⟩ := modifier_eq tokens
  simp [parameterGroup, hs] at h
  obtain ⟨ns, ts, after, hns, rfl, hs'⟩ := (nameList_of_faultless h.1).of_expect (by decide) h.2.1
  simp [hs'] at h
  obtain ⟨colon, after, hc, rfl⟩ := expect_of_faultless h.1
  simp [expect_cons hc] at h
  obtain ⟨spec, us, rest, ht, rfl, hr⟩ | hend := typeSpec_of_faultless h
  · refine .inl ⟨_, _, rest, .group hm hns hc ht, by simp, ?_⟩
    simp [parameterGroup, hs, hs', expect_cons hc, hr, Nat.add_assoc]
    omega
  · refine .inr ?_
    simpa [parameterGroup, hs, hs', expect_cons hc, Nat.add_assoc] using hend

/-- The closing parenthesis makes the last group exact as well. -/
theorem parameters_of_faultless {tokens : List Token}
    (h : (parameters finish tokens).faults = []) :
    IsExact (parameters finish) DerivesParameters tokens := by
  rw [parameters_eq] at h ⊢
  have hitem : ∀ tokens, (parameterGroup finish tokens).faults = [] → IsExactBeforeEnd
      (parameterGroup finish) (fun g ts => ∃ b, g = b ∧ DerivesGroup b ts) tokens :=
    fun tokens hf => (parameterGroup_of_faultless hf).mono fun g ts hg => ⟨g, rfl, hg⟩
  have hp := parenthesized_of_faultless isLoop_moreParameters (by decide) hitem h
  exact hp.mono fun ps ts ⟨groups, hg, hd⟩ => ⟨groups, hg.symm, hd⟩

/-! ### Routines -/

theorem body_of_faultless {tokens : List Token} (h : (body finish tokens).faults = []) :
    IsExact (body finish) (DerivesBody true) tokens := by
  simp [body] at h
  obtain ⟨word, inside, hw, rfl⟩ := expect_of_faultless h.1
  simp [expect_cons hw] at h
  obtain ⟨ns, ts, endWord, rest, hn, he, rfl, hr⟩ := block_of_faultless h
  refine ⟨_, _, rest, .block hw hn he, by simp, ?_⟩
  simp [body, expect_cons hw, hr, next]
  omega

/-- The word of the routine is no longer ahead when the rule begins, but belongs to what is derived.
-/
theorem functionDeclaration_of_faultless {word : Token} {tokens : List Token}
    (hw : word.kind = .keyword .function)
    (h : (functionDeclaration finish word.line tokens).faults = []) :
    IsExact (functionDeclaration finish word.line)
      (fun n ts => DerivesRoutine true n (word :: ts)) tokens := by
  simp [functionDeclaration] at h
  obtain ⟨name, after, hn, rfl⟩ := expect_of_faultless h.1
  simp [expect_cons hn] at h
  obtain ⟨formals, ps, after, hp, rfl, hps⟩ := parameters_of_faultless h.1
  simp [hps] at h
  obtain ⟨colon, after, hc, rfl⟩ := expect_of_faultless h.1
  simp [expect_cons hc, Nat.add_assoc] at h
  obtain ⟨spec, rs, after, ht, rfl, hrs⟩ :=
    (typeSpec_of_faultless h.1).of_expect (by decide) h.2.1
  simp [hrs] at h
  obtain ⟨semicolon, after, hs, rfl⟩ := expect_of_faultless h.1
  simp [expect_cons hs] at h
  obtain ⟨sections, ss, after, hd, rfl, hss⟩ := localSections_of_faultless h.1
  simp [hss] at h
  obtain ⟨b, bs, after, hb, rfl, hbs⟩ := body_of_faultless h.1
  simp [hbs] at h
  obtain ⟨last, rest, hl, rfl⟩ := expect_of_faultless h
  refine ⟨_, _, rest, .function hw hn hp hc ht hs hd hb hl, by simp, ?_⟩
  exact functionDeclaration_of_derives finish word.line hn hp hc ht hs hd hb hl rest

theorem procedureDeclaration_of_faultless {word : Token} {tokens : List Token}
    (hw : word.kind = .keyword .procedure)
    (h : (procedureDeclaration finish word.line tokens).faults = []) :
    IsExact (procedureDeclaration finish word.line)
      (fun n ts => DerivesRoutine true n (word :: ts)) tokens := by
  simp [procedureDeclaration] at h
  obtain ⟨name, after, hn, rfl⟩ := expect_of_faultless h.1
  simp [expect_cons hn] at h
  obtain ⟨formals, ps, after, hp, rfl, hps⟩ := parameters_of_faultless h.1
  simp [hps] at h
  obtain ⟨semicolon, after, hs, rfl⟩ := expect_of_faultless h.1
  simp [expect_cons hs, Nat.add_assoc] at h
  obtain ⟨sections, ss, after, hd, rfl, hss⟩ := localSections_of_faultless h.1
  simp [hss] at h
  obtain ⟨b, bs, after, hb, rfl, hbs⟩ := body_of_faultless h.1
  simp [hbs] at h
  obtain ⟨last, rest, hl, rfl⟩ := expect_of_faultless h
  refine ⟨_, _, rest, .procedure hw hn hp hs hd hb hl, by simp, ?_⟩
  exact procedureDeclaration_of_derives finish word.line hn hp hs hd hb hl rest

/-! ### Programs -/

theorem accept_identifier_eq (tokens : List Token) :
    IsExact (accept .identifier) DerivesFile tokens := by
  by_cases hk : kindAhead tokens = .identifier
  · obtain ⟨t, rest, ht, rfl⟩ := cons_of_kindAhead (by decide) hk
    exact ⟨true, [t], rest, .name ht, rfl, accept_cons ht rest⟩
  · exact ⟨false, [], tokens, .none, rfl, accept_of_ne hk⟩

theorem files_of_faultless {tokens : List Token} (hp : kindAhead tokens = .leftParen)
    (h : (files finish tokens).faults = []) :
    ∃ opening closing bs ts rest, opening.kind = .leftParen ∧ Separated .comma DerivesFile bs ts ∧
      closing.kind = .rightParen ∧ tokens = opening :: (ts ++ closing :: rest) := by
  obtain ⟨opening, inside, ho, rfl⟩ := cons_of_kindAhead (by decide) hp
  have hitem : ∀ tokens, (accept .identifier tokens).faults = [] → IsExactBeforeEnd
      (accept .identifier) (fun b ts => ∃ b', b = b' ∧ DerivesFile b' ts) tokens :=
    fun tokens _ => .inl ((accept_identifier_eq tokens).mono fun b ts hb => ⟨b, rfl, hb⟩)
  obtain ⟨b, ts, after, hb, rfl, hs⟩ := accept_identifier_eq inside
  simp [files, startsWith, ho, hs, Nat.add_assoc] at h
  obtain ⟨_, rs, after, ⟨bs, -, hbs⟩, rfl, hr⟩ :=
    (isLoop_moreFiles.exact (by decide) hitem h.1).of_expect (by decide) h.2
  simp [hr] at h
  obtain ⟨closing, rest, hc, rfl⟩ := expect_of_faultless h
  exact ⟨opening, closing, b :: bs, ts ++ rs, rest, ho, hbs b ts hb, hc, by simp⟩

theorem heading_of_faultless {tokens : List Token} (h : (heading finish tokens).faults = []) :
    IsExact (heading finish) DerivesHeading tokens := by
  by_cases hp : kindAhead tokens = .keyword .program
  · obtain ⟨word, inside, hw, rfl⟩ := cons_of_kindAhead (by decide) hp
    simp [heading, startsWith, hw] at h
    obtain ⟨name, after, hn, rfl⟩ := expect_of_faultless h.1
    simp [expect_cons hn] at h
    by_cases hl : kindAhead after = .leftParen
    · obtain ⟨opening, closing, bs, ts, rest, ho, hf, hc, rfl⟩ := files_of_faultless hl h.1
      have hfiles : files finish (opening :: (ts ++ closing :: rest)) =
          ⟨(), 1 + (ts.length + 1), []⟩ :=
        files_of_derives ho hf hc rest
      simp [hfiles] at h
      obtain ⟨semicolon, rest, hs, rfl⟩ := expect_of_faultless h
      have hd : DerivesHeading _ _ := .files hw hn ho hf hc hs
      exact ⟨_, _, rest, hd, by simp, heading_of_derives hd (by simp)⟩
    · have hfiles : files finish after = ⟨(), 0, []⟩ := by simp [files, startsWith_eq, hl]
      simp [hfiles] at h
      obtain ⟨semicolon, rest, hs, rfl⟩ := expect_of_faultless h
      have hd : DerivesHeading _ _ := .plain hw hn hs
      exact ⟨_, _, rest, hd, rfl, heading_of_derives hd (by simp)⟩
  · exact ⟨_, [], tokens, .none, rfl, heading_of_derives .none fun _ => hp⟩

/-- Units are passed over up to a semicolon or the end of the tokens. -/
theorem units_eq (tokens : List Token) :
    IsExactBeforeEnd units (fun _ => DerivesUnits) tokens := by
  by_cases hu : kindAhead tokens = .keyword .uses
  · obtain ⟨word, inside, hw, rfl⟩ := cons_of_kindAhead (by decide) hu
    obtain ⟨ts, after, hts, rfl, htw, hafter⟩ :=
      exists_takeWhile (fun t => t.kind != .semicolon && t.kind != .endOfInput) inside
    by_cases hsemi : kindAhead after = .semicolon
    · obtain ⟨semicolon, rest, hs, rfl⟩ := cons_of_kindAhead (by decide) hsemi
      have hd : DerivesUnits (word :: (ts ++ [semicolon])) := .units hw (by simpa using hts) hs
      exact .inl ⟨(), _, rest, hd, by simp, units_of_derives hd (by simp)⟩
    · refine .inr ?_
      have hend : kindAhead after = .endOfInput := by
        cases after with
        | nil => rfl
        | cons t after =>
          have ht := hafter t after rfl
          simp only [Bool.and_eq_false_iff, bne_eq_false_iff_eq] at ht
          exact ht.resolve_left hsemi
      simpa [units, startsWith, hw, htw, accept_of_ne hsemi] using hend
  · exact .inl ⟨(), [], tokens, .none, rfl, units_of_derives .none fun _ => hu⟩

theorem declarations_of_end {tokens : List Token} (h : kindAhead tokens = .endOfInput) :
    declarations finish tokens = ⟨[], 0, []⟩ := by
  cases tokens with
  | nil => rw [declarations]
  | cons t rest =>
    rw [declarations]
    simp [show t.kind = .endOfInput from h]

/-- A declaration is read behind its word, and then the others. -/
theorem declarations_cons_of_faultless {α : Type} {word : Token} {inside : List Token}
    (rule : List Token → Step α) (node : α → Node)
    (heq : ∀ tokens, declarations finish (word :: tokens) =
      let one := rule tokens
      let more := declarations finish (tokens.drop one.used)
      ((one.andThen more).as (node one.value :: more.value)).past 1)
    (hrule : (rule inside).faults = [] → IsExact rule (fun a ts =>
      DerivesSection (node a) (word :: ts) ∨ DerivesRoutine true (node a) (word :: ts)) inside)
    (ih : ∀ after, after.length ≤ inside.length → (declarations finish after).faults = [] →
      IsExact (declarations finish) (DerivesDeclarations true) after)
    (h : (declarations finish (word :: inside)).faults = []) :
    IsExact (declarations finish) (DerivesDeclarations true) (word :: inside) := by
  rw [heq] at h
  simp only [Step.past_faults, Step.as_faults, Step.andThen_faults, List.append_eq_nil_iff] at h
  obtain ⟨a, ts, after, ha, rfl, hs⟩ := hrule h.1
  simp only [hs, List.drop_left] at h
  obtain ⟨ns, rs, rest, hns, rfl, hr⟩ := ih after (by simp) h.2
  refine ⟨node a :: ns, word :: ts ++ rs, rest, ?_, by simp, ?_⟩
  · exact ha.elim (fun ha => .section ha hns) fun ha => .routine ha hns
  · rw [List.append_assoc, List.cons_append, heq]
    simp [hs, hr]
    omega

theorem declarations_of_faultless {tokens : List Token}
    (h : (declarations finish tokens).faults = []) :
    IsExact (declarations finish) (DerivesDeclarations true) tokens := by
  generalize hn : tokens.length = n
  induction n using Nat.strongRecOn generalizing tokens with
  | ind n ih =>
    match tokens with
    | [] => exact ⟨[], [], [], .nil, rfl, declarations_of_end rfl⟩
    | word :: inside =>
      have ih' : ∀ after, after.length ≤ inside.length → (declarations finish after).faults = [] →
          IsExact (declarations finish) (DerivesDeclarations true) after :=
        fun after hl hf => ih after.length (by simp at hn; omega) hf rfl
      -- One case for each word that begins a declaration; the list ends before every other token.
      cases hw : word.kind with
      | keyword w =>
        cases w with
        | const =>
          refine declarations_cons_of_faultless (constSection finish) (.constSection · word.line)
            (fun _ => by rw [declarations]; simp only [hw]) (fun hf => ?_) ih' h
          exact (constSection_of_faultless hf).mono fun cs ts hcs => .inl (.consts hw hcs)
        | var =>
          refine declarations_cons_of_faultless (varSection finish) (.varSection · word.line)
            (fun _ => by rw [declarations]; simp only [hw]) (fun hf => ?_) ih' h
          exact (varSection_of_faultless hf).mono fun vs ts hvs => .inl (.vars hw hvs)
        | function =>
          refine declarations_cons_of_faultless (functionDeclaration finish word.line) id
            (fun _ => by rw [declarations]; simp only [hw]; rfl) (fun hf => ?_) ih' h
          exact (functionDeclaration_of_faultless hw hf).mono fun n ts hn => .inr hn
        | procedure =>
          refine declarations_cons_of_faultless (procedureDeclaration finish word.line) id
            (fun _ => by rw [declarations]; simp only [hw]; rfl) (fun hf => ?_) ih' h
          exact (procedureDeclaration_of_faultless hw hf).mono fun n ts hn => .inr hn
        | type =>
          obtain ⟨ts, after, hts, rfl, htw, -⟩ :=
            exists_takeWhile (fun t => !endsTypeSection t.kind) inside
          rw [declarations] at h
          simp [hw, htw] at h
          obtain ⟨ns, rs, rest, hns, rfl, hr⟩ := ih' after (by simp) h
          refine ⟨ns, word :: (ts ++ rs), rest, .types hw (by simpa using hts) hns, by simp, ?_⟩
          rw [List.cons_append, List.append_assoc, declarations]
          simp [hw, htw, hr]
          omega
        | _ =>
          refine ⟨[], [], word :: inside, .nil, rfl, ?_⟩
          rw [List.nil_append, declarations]
          simp [hw]
      | _ =>
        refine ⟨[], [], word :: inside, .nil, rfl, ?_⟩
        rw [List.nil_append, declarations]
        simp [hw]

theorem accept_dot_eq (tokens : List Token) :
    ∃ b es rest, DerivesDot es ∧ tokens = es ++ rest ∧
      accept .dot (es ++ rest) = ⟨b, es.length, []⟩ := by
  by_cases hk : kindAhead tokens = .dot
  · obtain ⟨t, rest, ht, rfl⟩ := cons_of_kindAhead (by decide) hk
    exact ⟨true, [t], rest, .dot ht, rfl, accept_cons ht rest⟩
  · exact ⟨false, [], tokens, .none, rfl, accept_of_ne hk⟩

/-- **A program is read without a fault only from tokens that the lenient grammar derives from it**,
whatever is left behind them. -/
theorem program_of_faultless {tokens : List Token} (h : (program finish tokens).faults = []) :
    IsExact (program finish) (DerivesProgram true) tokens := by
  simp [program] at h
  obtain ⟨name, hs, after, hh, rfl, hhs⟩ := heading_of_faultless h.1
  simp [hhs, Nat.add_assoc] at h
  obtain ⟨_, us, after, hu, rfl, hus⟩ | hend := units_eq after
  · simp [hus] at h
    obtain ⟨declared, ds, after, hd, rfl, hds⟩ := declarations_of_faultless h.1
    simp [hds] at h
    obtain ⟨b, bs, after, hb, rfl, hbs⟩ := body_of_faultless h.1
    obtain ⟨dot, es, rest, he, rfl, hes⟩ := accept_dot_eq after
    have hne : hs ++ (us ++ (ds ++ (bs ++ es))) ≠ [] := by
      cases hb with
      | block _ _ _ => simp
    have hl : (next finish (hs ++ (us ++ (ds ++ (bs ++ (es ++ rest)))))).line =
        firstLine (hs ++ (us ++ (ds ++ (bs ++ es)))) := by
      simpa using line_next finish hne rest
    refine ⟨_, _, rest, .program hh hu hd hb he, by simp, ?_⟩
    simp [program, hhs, hus, hds, hbs, hes, hl, Nat.add_assoc]
  · -- The tokens ended with the units, so the body is missing.
    simp [declarations_of_end hend, body] at h
    obtain ⟨word, rest, hw, hrest⟩ := expect_of_faultless h.2.1.1
    rw [hrest, kindAhead_cons, hw] at hend
    exact absurd hend (by decide)

end Grammar
end PascalCheck
