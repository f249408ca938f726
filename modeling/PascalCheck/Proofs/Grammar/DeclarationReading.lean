import PascalCheck.Proofs.Grammar.StatementReading
import PascalCheck.Proofs.Grammar.DeclarationGrammar

/-! Declarations and programs that the grammar derives are read back. -/
namespace PascalCheck
namespace Grammar

variable {finish : EndMark} {lenient : Bool} {ts rest : List Token} {faults : List GrammarFault}

/-! ### Names -/

theorem declaredName_of_derives {n : DeclaredName} (h : DerivesName n ts) (rest : List Token) :
    declaredName finish (ts ++ rest) = ⟨[n], ts.length, []⟩ := by
  cases h with
  | name ht => simp [declaredName, expect_cons ht]

theorem isLoop_moreNames : IsLoop .comma .optional (declaredName finish) (moreNames finish) := by
  intro tokens
  cases tokens <;> (rw [moreNames]; rfl)

/-- Names are read up to the colon. -/
theorem nameList_of_derives {ns : List DeclaredName} (h : Separated .comma DerivesName ns ts)
    (rest : List Token) (hr : kindAhead rest = .colon) :
    nameList finish (ts ++ rest) = ⟨ns, ts.length, []⟩ := by
  cases h with
  | single hn =>
    have hm : kindAhead rest ≠ .comma := by rw [hr]; decide
    simp [nameList, declaredName_of_derives hn, isLoop_moreNames.of_end hm, Assembly.optional]
  | @cons n ns separator ts rs hn hs hns =>
    have hm : moreNames finish (separator :: (rs ++ rest)) = ⟨ns, 1 + rs.length, []⟩ :=
      isLoop_moreNames.read (fun n ts rest hn _ => declaredName_of_derives hn rest)
        (by decide) hns rest hr hs
    simp [nameList, declaredName_of_derives hn, hm]
    omega

/-! ### Types -/

/-- What is inside of brackets is passed over up to the closing one. -/
theorem bounds_of_isInside (h : IsInside ts) {closing : Token}
    (hc : closing.kind = .rightBracket) (rest : List Token) :
    bounds (ts ++ closing :: rest) = ⟨(), ts.length, []⟩ := by
  have ht : ts.all (fun t => t.kind != .rightBracket && t.kind != .endOfInput) = true := by
    simpa [IsInside] using h
  simp only [bounds]
  rw [List.takeWhile_append_of_pos (by simpa using ht)]
  simp [hc]

theorem typeSpec_of_namesType {t : Token} (h : namesType t.kind = true) (rest : List Token) :
    typeSpec finish (t :: rest) = typeName finish (t :: rest) := by
  have ha : t.kind ≠ .keyword .array := by
    intro hk
    rw [hk] at h
    exact absurd h (by decide)
  rw [typeSpec]
  simp [ha]

theorem typeSpec_array {word opening closing ofWord : Token} {bs : List Token}
    (hw : word.kind = .keyword .array) (ho : opening.kind = .leftBracket) (hin : IsInside bs)
    (hc : closing.kind = .rightBracket) (hof : ofWord.kind = .keyword .of) (rest : List Token) :
    typeSpec finish (word :: opening :: (bs ++ closing :: ofWord :: rest)) =
      ((typeSpec finish rest).as ⟨(typeSpec finish rest).value.name, true⟩).past
        (1 + (1 + (bs.length + 2))) := by
  rw [typeSpec]
  simp [hw, expect_cons ho, bounds_of_isInside hin hc, expect_cons hc, expect_cons hof,
    Nat.add_assoc]

/-- A type is read before tokens that give no length to it. -/
theorem typeSpec_of_derives {spec : TypeSpec} (h : DerivesType spec ts) (rest : List Token)
    (hr : kindAhead rest ≠ .leftBracket) :
    typeSpec finish (ts ++ rest) = ⟨spec, ts.length, []⟩ := by
  induction h with
  | name ht =>
    rw [List.singleton_append, typeSpec_of_namesType ht]
    simp [typeName, ht, startsWith_eq, hr]
  | @string t opening closing ts ht hs ho hin hc =>
    rw [List.cons_append, typeSpec_of_namesType ht]
    simp [typeName, ht, hs, startsWith, ho, bounds_of_isInside hin hc, accept, hc]
    omega
  | @array word opening closing ofWord spec bs ts hw ho hin hc hof _ ih =>
    simp only [List.cons_append, List.append_assoc]
    rw [typeSpec_array hw ho hin hc hof, ih]
    simp
    omega

/-! ### Sections -/

theorem constSection_of_end (h : kindAhead rest ≠ .identifier) :
    constSection finish rest = ⟨[], 0, []⟩ := by
  cases rest with
  | nil => rw [constSection]
  | cons t rest => rw [constSection]; simp_all

/-- A constant is read, and then the others of its section. -/
theorem constSection_cons {c : ConstDeclaration} (h : DerivesConstant c ts) (rest : List Token) :
    constSection finish (ts ++ rest) =
      ((constSection finish rest).as (c :: (constSection finish rest).value)).past ts.length := by
  cases h with
  | @constant name equals semicolon e ts hn hk ht he hs =>
    have he' : expression finish (ts ++ semicolon :: rest) = ⟨e, ts.length, []⟩ :=
      expression_of_derives he _ (by rw [kindAhead_cons, hs]; rfl)
    simp only [List.cons_append, List.append_assoc, List.nil_append]
    rw [constSection]
    simp [hn, equalsSign, hk, ht, he', expect_cons hs, Nat.add_comm, Nat.add_left_comm]

theorem constSection_of_derives {cs : List ConstDeclaration} (h : Sequence DerivesConstant cs ts)
    (hr : kindAhead rest ≠ .identifier) :
    constSection finish (ts ++ rest) = ⟨cs, ts.length, []⟩ := by
  induction h with
  | nil => exact constSection_of_end hr
  | cons hc _ ih => simp [constSection_cons hc, ih]

/-- Names begin with the first of them. -/
theorem cons_of_names {n : DeclaredName} {ns : List DeclaredName}
    (h : Separated .comma DerivesName (n :: ns) ts) :
    ∃ t after, t.kind = .identifier ∧ n = ⟨t.text, t.line⟩ ∧ ts = t :: after := by
  cases h with
  | single hn => cases hn with | @name t ht => exact ⟨t, [], ht, rfl, rfl⟩
  | cons hn _ _ => cases hn with | @name t ht => exact ⟨t, _, ht, rfl, rfl⟩

theorem kindAhead_names {ns : List DeclaredName} (h : Separated .comma DerivesName ns ts)
    (rest : List Token) : kindAhead (ts ++ rest) = .identifier := by
  cases h with
  | single hn => cases hn with | name ht => exact ht
  | cons hn _ _ => cases hn with | name ht => exact ht

theorem varSection_of_end (h : kindAhead rest ≠ .identifier) :
    varSection finish rest = ⟨[], 0, []⟩ := by
  cases rest with
  | nil => rw [varSection]
  | cons t rest => rw [varSection]; simp_all

/-- The rule of a section of variables where a name comes next. -/
theorem varSection_of_name {tokens : List Token} (h : kindAhead tokens = .identifier) :
    varSection finish tokens =
      let one := varDeclaration finish tokens
      let closed := one.andThen (expect finish .semicolon (tokens.drop one.used))
      let more := varSection finish (tokens.drop closed.used)
      (closed.andThen more).as (one.value :: more.value) := by
  obtain ⟨t, rest, ht, rfl⟩ := cons_of_kindAhead (by decide) h
  rw [varSection]
  exact if_pos ht

/-- Variables of one type are read up to the semicolon. -/
theorem varDeclaration_of_derives {n : DeclaredName} {ns : List DeclaredName} {colon : Token}
    {spec : TypeSpec} {us : List Token} (hn : Separated .comma DerivesName (n :: ns) ts)
    (hc : colon.kind = .colon) (ht : DerivesType spec us) (hr : kindAhead rest ≠ .leftBracket) :
    varDeclaration finish (ts ++ colon :: us ++ rest) =
      ⟨⟨n :: ns, spec, n.line⟩, (ts ++ colon :: us).length, []⟩ := by
  rw [List.append_assoc, List.cons_append]
  have hn' : nameList finish (ts ++ colon :: (us ++ rest)) = ⟨n :: ns, ts.length, []⟩ :=
    nameList_of_derives hn _ hc
  have hl : (next finish (ts ++ colon :: (us ++ rest))).line = n.line := by
    obtain ⟨t, after, -, rfl, rfl⟩ := cons_of_names hn
    rfl
  simp [varDeclaration, hn', expect_cons hc, typeSpec_of_derives ht rest hr, hl, Nat.add_comm,
    Nat.add_left_comm]

/-- Variables of one type are read, and then the others of their section. -/
theorem varSection_cons {v : VarDeclaration} (h : DerivesVariables v ts) (rest : List Token) :
    varSection finish (ts ++ rest) =
      ((varSection finish rest).as (v :: (varSection finish rest).value)).past ts.length := by
  cases h with
  | @declaration colon semicolon n ns spec ts us hn hc ht hs =>
    have hv : varDeclaration finish (ts ++ colon :: us ++ semicolon :: rest) =
        ⟨⟨n :: ns, spec, n.line⟩, (ts ++ colon :: us).length, []⟩ :=
      varDeclaration_of_derives hn hc ht (by simp [hs])
    have hk : kindAhead (ts ++ colon :: us ++ semicolon :: rest) = .identifier := by
      rw [List.append_assoc]
      exact kindAhead_names hn _
    have hts : ts ++ colon :: (us ++ [semicolon]) ++ rest =
        ts ++ colon :: us ++ semicolon :: rest := by simp
    rw [hts, varSection_of_name hk, hv]
    simp [expect_cons hs, Nat.add_assoc]

theorem varSection_of_derives {vs : List VarDeclaration} (h : Sequence DerivesVariables vs ts)
    (hr : kindAhead rest ≠ .identifier) :
    varSection finish (ts ++ rest) = ⟨vs, ts.length, []⟩ := by
  induction h with
  | nil => exact varSection_of_end hr
  | cons hv _ ih => simp [varSection_cons hv, ih]

/-- A section begins with its word, which ends a section in front of it. -/
theorem DerivesSection.begins {n : Node} (h : DerivesSection n ts) (rest : List Token) :
    endsTypeSection (kindAhead (ts ++ rest)) = true := by
  cases h with
  | vars hw _ | consts hw _ => simp [hw, endsTypeSection]

theorem Sequence.begins_section {ns : List Node} (h : Sequence DerivesSection ns ts)
    (hr : endsTypeSection (kindAhead rest) = true) :
    endsTypeSection (kindAhead (ts ++ rest)) = true := by
  cases h with
  | nil => exact hr
  | cons hn _ =>
    rw [List.append_assoc]
    exact hn.begins _

theorem ne_identifier_of_endsTypeSection {kind : TokenKind} (h : endsTypeSection kind = true) :
    kind ≠ .identifier := by
  rintro rfl
  exact absurd h (by decide)

theorem localSections_of_end {rest : List Token} (h : kindAhead rest ≠ .keyword .var)
    (h' : kindAhead rest ≠ .keyword .const) : localSections finish rest = ⟨[], 0, []⟩ := by
  cases rest with
  | nil => rw [localSections]
  | cons t rest => rw [localSections]; simp_all

/-- A section of a routine is read, and then the others. -/
theorem localSections_cons {n : Node} (h : DerivesSection n ts) {rest : List Token}
    (hr : kindAhead rest ≠ .identifier) :
    localSections finish (ts ++ rest) =
      ((localSections finish rest).as (n :: (localSections finish rest).value)).past
        ts.length := by
  cases h with
  | @vars word vs ts hw hs =>
    rw [List.cons_append, localSections]
    simp [hw, varSection_of_derives hs hr, Nat.add_comm]
  | @consts word cs ts hw hs =>
    rw [List.cons_append, localSections]
    simp [hw, constSection_of_derives hs hr, Nat.add_comm]

/-- The sections of a routine are read up to its body. -/
theorem localSections_of_derives {ns : List Node} (h : Sequence DerivesSection ns ts)
    (hr : kindAhead rest = .keyword .begin) :
    localSections finish (ts ++ rest) = ⟨ns, ts.length, []⟩ := by
  induction h with
  | nil => exact localSections_of_end (by simp [hr]) (by simp [hr])
  | @cons n ns ts rs hn hns ih =>
    have hk : kindAhead (rs ++ rest) ≠ .identifier :=
      ne_identifier_of_endsTypeSection (hns.begins_section (by rw [hr]; rfl))
    simp [localSections_cons hn hk, ih]

/-! ### Parameters -/

theorem modifier_of_derives {m : Option String} (h : DerivesModifier m ts)
    (hr : kindAhead rest = .identifier) : modifier (ts ++ rest) = ⟨m, ts.length, []⟩ := by
  cases h with
  | none =>
    obtain ⟨t, rest, ht, rfl⟩ := cons_of_kindAhead (by decide) hr
    simp [modifier, ht]
  | word ht => simp [modifier, ht]

theorem parameterGroup_of_derives {ps : List Parameter} (h : DerivesGroup ps ts)
    (rest : List Token) (hr : kindAhead rest ≠ .leftBracket) :
    parameterGroup finish (ts ++ rest) = ⟨ps, ts.length, []⟩ := by
  cases h with
  | @group m colon ns spec ms ts us hm hn hc ht =>
    have hn' : nameList finish (ts ++ colon :: (us ++ rest)) = ⟨ns, ts.length, []⟩ :=
      nameList_of_derives hn _ hc
    have hm' : modifier (ms ++ (ts ++ colon :: (us ++ rest))) = ⟨m, ms.length, []⟩ :=
      modifier_of_derives hm (kindAhead_names hn _)
    simp [parameterGroup, hm', hn', expect_cons hc, typeSpec_of_derives ht rest hr, Nat.add_assoc]
    omega

theorem isLoop_moreParameters :
    IsLoop .semicolon .groups (parameterGroup finish) (moreParameters finish) := by
  intro tokens
  cases tokens <;> (rw [moreParameters]; rfl)

theorem DerivesGroup.ne_rightParen {ps : List Parameter} (h : DerivesGroup ps ts)
    (rest : List Token) : kindAhead (ts ++ rest) ≠ .rightParen := by
  cases h with
  | group hm hn _ _ =>
    cases hm with
    | none => simp [kindAhead_names hn]
    | word ht => rcases ht with ht | ht <;> simp [ht]

/-- The parameters of a routine are a list in parentheses. -/
theorem parameters_eq : parameters finish =
    parenthesized finish .groups (parameterGroup finish) (moreParameters finish) := rfl

theorem parameters_of_derives {ps : List Parameter} (h : DerivesParameters ps ts)
    (hr : kindAhead rest ≠ .leftParen) :
    parameters finish (ts ++ rest) = ⟨ps, ts.length, []⟩ := by
  obtain ⟨groups, rfl, hg⟩ := h
  exact parenthesized_of_derives isLoop_moreParameters (by decide)
    (fun g ts rest hg hk =>
      parameterGroup_of_derives hg rest (by rcases hk with hk | hk <;> simp [hk]))
    (fun g ts rest hg => hg.ne_rightParen rest) hg hr

/-! ### Routines -/

theorem body_of_statements {word endWord : Token} {ns : List Node}
    (hw : word.kind = .keyword .begin)
    (hs : statements finish (ts ++ endWord :: rest) = ⟨ns, ts.length, faults⟩)
    (he : endWord.kind = .keyword .end) :
    body finish (word :: (ts ++ [endWord]) ++ rest) =
      ⟨.block ns word.line, (word :: (ts ++ [endWord])).length, faults⟩ := by
  simp [body, expect_cons hw, block_of_statements hs he, next]
  omega

theorem body_of_derives {b : Body} (h : DerivesBody lenient b ts) (rest : List Token) :
    body finish (ts ++ rest) = ⟨b, ts.length, []⟩ := by
  cases h with
  | @block word endWord ns ts hw hn he =>
    exact body_of_statements hw
      (isReadStatement_of_derives hn _ (by rw [kindAhead_cons, he]; rfl)) he

theorem DerivesBody.begins {b : Body} (h : DerivesBody lenient b ts) (rest : List Token) :
    kindAhead (ts ++ rest) = .keyword .begin := by
  cases h with
  | block hw _ _ => exact hw

/-- A function is read as its body is. -/
theorem functionDeclaration_of_body (finish : EndMark) (line : Int)
    {name colon semicolon last : Token} {formals : List Parameter} {result : TypeSpec}
    {sections : List Node} {b : Body} {ps rs ss bs : List Token}
    (hn : name.kind = .identifier) (hp : DerivesParameters formals ps)
    (hc : colon.kind = .colon) (hr : DerivesType result rs) (hs : semicolon.kind = .semicolon)
    (hd : Sequence DerivesSection sections ss) (hl : last.kind = .semicolon) {rest : List Token}
    (hbegin : kindAhead (bs ++ last :: rest) = .keyword .begin)
    (hb : body finish (bs ++ last :: rest) = ⟨b, bs.length, faults⟩) :
    let ts := name :: (ps ++ colon :: (rs ++ semicolon :: (ss ++ (bs ++ [last]))))
    functionDeclaration finish line (ts ++ rest) =
      ⟨.function name.text formals result sections b line, ts.length, faults⟩ := by
  have hp' : parameters finish
      (ps ++ colon :: (rs ++ semicolon :: (ss ++ (bs ++ last :: rest)))) =
      ⟨formals, ps.length, []⟩ := parameters_of_derives hp (by simp [hc])
  have hr' : typeSpec finish (rs ++ semicolon :: (ss ++ (bs ++ last :: rest))) =
      ⟨result, rs.length, []⟩ := typeSpec_of_derives hr _ (by simp [hs])
  have hd' : localSections finish (ss ++ (bs ++ last :: rest)) = ⟨sections, ss.length, []⟩ :=
    localSections_of_derives hd hbegin
  simp [functionDeclaration, expect_cons hn, hp', expect_cons hc, hr', expect_cons hs, hd', hb,
    expect_cons hl, nameOr, Step.mk_andThen_mk, Nat.add_assoc]
  omega

/-- A procedure is read as its body is. -/
theorem procedureDeclaration_of_body (finish : EndMark) (line : Int)
    {name semicolon last : Token} {formals : List Parameter} {sections : List Node} {b : Body}
    {ps ss bs : List Token} (hn : name.kind = .identifier) (hp : DerivesParameters formals ps)
    (hs : semicolon.kind = .semicolon) (hd : Sequence DerivesSection sections ss)
    (hl : last.kind = .semicolon) {rest : List Token}
    (hbegin : kindAhead (bs ++ last :: rest) = .keyword .begin)
    (hb : body finish (bs ++ last :: rest) = ⟨b, bs.length, faults⟩) :
    let ts := name :: (ps ++ semicolon :: (ss ++ (bs ++ [last])))
    procedureDeclaration finish line (ts ++ rest) =
      ⟨.procedure name.text formals sections b line, ts.length, faults⟩ := by
  have hp' : parameters finish (ps ++ semicolon :: (ss ++ (bs ++ last :: rest))) =
      ⟨formals, ps.length, []⟩ := parameters_of_derives hp (by simp [hs])
  have hd' : localSections finish (ss ++ (bs ++ last :: rest)) = ⟨sections, ss.length, []⟩ :=
    localSections_of_derives hd hbegin
  simp [procedureDeclaration, expect_cons hn, hp', expect_cons hs, hd', hb, expect_cons hl,
    nameOr, Step.mk_andThen_mk, Nat.add_assoc]
  omega

theorem functionDeclaration_of_derives (finish : EndMark) (line : Int)
    {name colon semicolon last : Token} {formals : List Parameter} {result : TypeSpec}
    {sections : List Node} {b : Body}
    {ps rs ss bs : List Token} (hn : name.kind = .identifier) (hp : DerivesParameters formals ps)
    (hc : colon.kind = .colon) (hr : DerivesType result rs) (hs : semicolon.kind = .semicolon)
    (hd : Sequence DerivesSection sections ss) (hb : DerivesBody lenient b bs)
    (hl : last.kind = .semicolon) (rest : List Token) :
    let ts := name :: (ps ++ colon :: (rs ++ semicolon :: (ss ++ (bs ++ [last]))))
    functionDeclaration finish line (ts ++ rest) =
      ⟨.function name.text formals result sections b line, ts.length, []⟩ :=
  functionDeclaration_of_body finish line hn hp hc hr hs hd hl (hb.begins _) (body_of_derives hb _)

theorem procedureDeclaration_of_derives (finish : EndMark) (line : Int)
    {name semicolon last : Token} {formals : List Parameter} {sections : List Node} {b : Body}
    {ps ss bs : List Token}
    (hn : name.kind = .identifier) (hp : DerivesParameters formals ps)
    (hs : semicolon.kind = .semicolon) (hd : Sequence DerivesSection sections ss)
    (hb : DerivesBody lenient b bs) (hl : last.kind = .semicolon) (rest : List Token) :
    let ts := name :: (ps ++ semicolon :: (ss ++ (bs ++ [last])))
    procedureDeclaration finish line (ts ++ rest) =
      ⟨.procedure name.text formals sections b line, ts.length, []⟩ :=
  procedureDeclaration_of_body finish line hn hp hs hd hl (hb.begins _) (body_of_derives hb _)

/-! ### Programs -/

/-- Declarations begin with words that end a section. -/
theorem DerivesDeclarations.begins {ns : List Node} (h : DerivesDeclarations lenient ns ts)
    (hr : kindAhead rest = .keyword .begin) :
    endsTypeSection (kindAhead (ts ++ rest)) = true := by
  cases h with
  | nil => rw [List.nil_append, hr]; rfl
  | «section» hn _ =>
    rw [List.append_assoc]
    exact hn.begins _
  | routine hn _ => cases hn with
    | function hw _ _ _ _ _ _ _ _ | procedure hw _ _ _ _ _ _ => simp [hw, endsTypeSection]
  | types hw _ _ => simp [hw, endsTypeSection]

section
variable {word : Token} {n : Node} {ns : List Node} {count : Nat} {faults' : List GrammarFault}

/-- Variables in front of other declarations. -/
theorem declarations_vars {vs : List VarDeclaration} (hw : word.kind = .keyword .var)
    (h : varSection finish (ts ++ rest) = ⟨vs, ts.length, faults⟩)
    (hmore : declarations finish rest = ⟨ns, count, faults'⟩) :
    declarations finish (word :: ts ++ rest) =
      ⟨.varSection vs word.line :: ns, (word :: ts).length + count, faults ++ faults'⟩ := by
  rw [List.cons_append, declarations]
  simp [hw, h, hmore, Step.mk_andThen_mk]
  omega

/-- Constants in front of other declarations. -/
theorem declarations_consts {cs : List ConstDeclaration} (hw : word.kind = .keyword .const)
    (h : constSection finish (ts ++ rest) = ⟨cs, ts.length, faults⟩)
    (hmore : declarations finish rest = ⟨ns, count, faults'⟩) :
    declarations finish (word :: ts ++ rest) =
      ⟨.constSection cs word.line :: ns, (word :: ts).length + count, faults ++ faults'⟩ := by
  rw [List.cons_append, declarations]
  simp [hw, h, hmore, Step.mk_andThen_mk]
  omega

/-- A function in front of other declarations. -/
theorem declarations_function (hw : word.kind = .keyword .function)
    (h : functionDeclaration finish word.line (ts ++ rest) = ⟨n, ts.length, faults⟩)
    (hmore : declarations finish rest = ⟨ns, count, faults'⟩) :
    declarations finish (word :: ts ++ rest) =
      ⟨n :: ns, (word :: ts).length + count, faults ++ faults'⟩ := by
  rw [List.cons_append, declarations]
  simp [hw, h, hmore, Step.mk_andThen_mk]
  omega

/-- A procedure in front of other declarations. -/
theorem declarations_procedure (hw : word.kind = .keyword .procedure)
    (h : procedureDeclaration finish word.line (ts ++ rest) = ⟨n, ts.length, faults⟩)
    (hmore : declarations finish rest = ⟨ns, count, faults'⟩) :
    declarations finish (word :: ts ++ rest) =
      ⟨n :: ns, (word :: ts).length + count, faults ++ faults'⟩ := by
  rw [List.cons_append, declarations]
  simp [hw, h, hmore, Step.mk_andThen_mk]
  omega

end

/-- In front of the body there are no more declarations. -/
theorem declarations_of_begin (hr : kindAhead rest = .keyword .begin) :
    declarations finish rest = ⟨[], 0, []⟩ := by
  obtain ⟨t, rest, ht, rfl⟩ := cons_of_kindAhead (by decide) hr
  rw [declarations]
  simp [ht]

theorem declarations_of_derives {ns : List Node} (h : DerivesDeclarations lenient ns ts)
    (hr : kindAhead rest = .keyword .begin) :
    declarations finish (ts ++ rest) = ⟨ns, ts.length, []⟩ := by
  induction h with
  | nil => exact declarations_of_begin hr
  | @«section» n ns ts rs hn hns ih =>
    have hk : kindAhead (rs ++ rest) ≠ .identifier :=
      ne_identifier_of_endsTypeSection (hns.begins hr)
    rw [List.append_assoc, List.length_append]
    cases hn with
    | vars hw hs => exact declarations_vars hw (varSection_of_derives hs hk) ih
    | consts hw hs => exact declarations_consts hw (constSection_of_derives hs hk) ih
  | @routine n ns ts rs hn hns ih =>
    rw [List.append_assoc, List.length_append]
    cases hn with
    | function hw hn hp hc hr' hs hd hb hl =>
      exact declarations_function hw
        (functionDeclaration_of_derives finish _ hn hp hc hr' hs hd hb hl (rs ++ rest)) ih
    | procedure hw hn hp hs hd hb hl =>
      exact declarations_procedure hw
        (procedureDeclaration_of_derives finish _ hn hp hs hd hb hl (rs ++ rest)) ih
  | @types word ns ts rs hw hin hns ih =>
    -- What is passed over ends before the next declaration or the body.
    have hk := hns.begins hr
    have hw' : (ts ++ (rs ++ rest)).takeWhile (fun t => !endsTypeSection t.kind) = ts := by
      rw [List.takeWhile_append_of_pos (by simpa using hin)]
      cases hrs : rs ++ rest with
      | nil => simp
      | cons t after =>
        rw [hrs] at hk
        simp [show endsTypeSection t.kind = true from hk]
    rw [List.cons_append, List.append_assoc, declarations]
    simp [hw, hw', ih]
    omega

theorem accept_of_derives {b : Bool} (h : DerivesFile b ts)
    (hr : kindAhead rest ≠ .identifier) :
    accept .identifier (ts ++ rest) = ⟨b, ts.length, []⟩ := by
  cases h with
  | none => exact accept_of_ne hr
  | name ht => exact accept_cons ht rest

/-- Whether the files have names is forgotten. -/
def forgotten : Assembly Bool Bool Unit :=
  ⟨(), fun _ _ => (), id, fun _ => (), rfl, fun _ _ => rfl⟩

theorem isLoop_moreFiles : IsLoop .comma forgotten (accept .identifier) moreFiles := by
  intro tokens
  cases tokens with
  | nil => rw [moreFiles]
  | cons t rest =>
    rw [moreFiles]
    rfl

/-- The files of a heading are read up to the parenthesis. -/
theorem files_of_derives {opening closing : Token} {bs : List Bool}
    (ho : opening.kind = .leftParen) (h : Separated .comma DerivesFile bs ts)
    (hc : closing.kind = .rightParen) (rest : List Token) :
    files finish (opening :: (ts ++ closing :: rest)) = ⟨(), 1 + (ts.length + 1), []⟩ := by
  have hitem : ∀ b us rest, DerivesFile b us → kindAhead rest = .comma ∨
      kindAhead rest = .rightParen → accept .identifier (us ++ rest) = ⟨b, us.length, []⟩ :=
    fun b us rest hb hk => accept_of_derives hb (by rcases hk with hk | hk <;> simp [hk])
  cases h with
  | @single b ts hb =>
    have hone := hitem b ts (closing :: rest) hb (.inr hc)
    have hm : kindAhead (closing :: rest) ≠ .comma := by simp [hc]
    simp [files, startsWith, ho, hone, isLoop_moreFiles.of_end hm, expect_cons hc, Nat.add_assoc]
  | @cons b bs separator ts rs hb hs hbs =>
    have hone := hitem b ts (separator :: (rs ++ closing :: rest)) hb (.inl hs)
    have hm : moreFiles (separator :: (rs ++ closing :: rest)) = ⟨(), 1 + rs.length, []⟩ :=
      isLoop_moreFiles.read hitem (by decide) hbs (closing :: rest) hc hs
    simp [files, startsWith, ho, hone, hm, expect_cons hc, Nat.add_assoc]
    omega

theorem heading_of_derives {name : String} (h : DerivesHeading name ts)
    (hr : ts = [] → kindAhead rest ≠ .keyword .program) :
    heading finish (ts ++ rest) = ⟨name, ts.length, []⟩ := by
  cases h with
  | none => simp [heading, startsWith_eq, hr]
  | plain hw hn hs =>
    simp [heading, files, startsWith, hw, expect_cons hn, expect_cons hs, hs, nameOr]
  | @files word name opening closing semicolon bs ts hw hn ho hf hc hs =>
    have hf' : files finish (opening :: (ts ++ closing :: (semicolon :: rest))) =
        ⟨(), 1 + (ts.length + 1), []⟩ := files_of_derives ho hf hc _
    simp [heading, startsWith, hw, expect_cons hn, hf', expect_cons hs, nameOr, Nat.add_assoc]
    omega

theorem units_of_derives (h : DerivesUnits ts) (hr : ts = [] → kindAhead rest ≠ .keyword .uses) :
    units (ts ++ rest) = ⟨(), ts.length, []⟩ := by
  cases h with
  | none => simp [units, startsWith_eq, hr]
  | @units word semicolon ts hw hin hs =>
    have ht : ts.all (fun t => t.kind != .semicolon && t.kind != .endOfInput) = true := by
      simpa using hin
    have hw' : (ts ++ semicolon :: rest).takeWhile
        (fun t => t.kind != .semicolon && t.kind != .endOfInput) = ts := by
      rw [List.takeWhile_append_of_pos (by simpa using ht)]
      simp [hs]
    simp [units, startsWith, hw, hw', accept, hs]
    omega

theorem kindAhead_units {us : List Token} (hu : DerivesUnits us)
    (hr : endsTypeSection (kindAhead rest) = true) :
    kindAhead (us ++ rest) ≠ .keyword .program := by
  cases hu with
  | none =>
    intro hk
    rw [List.nil_append] at hk
    rw [hk] at hr
    exact absurd hr (by decide)
  | units hw _ _ => simp [hw]

theorem accept_dot {es : List Token} (he : DerivesDot es) (hr : es = [] → kindAhead rest ≠ .dot) :
    ∃ b, accept .dot (es ++ rest) = ⟨b, es.length, []⟩ := by
  cases he with
  | none => exact ⟨false, accept_of_ne (hr rfl)⟩
  | dot ht => exact ⟨true, accept_cons ht rest⟩

theorem line_next (finish : EndMark) (h : ts ≠ []) (rest : List Token) :
    (next finish (ts ++ rest)).line = firstLine ts := by
  cases ts with
  | nil => exact absurd rfl h
  | cons t ts => rfl

/-- The last token is a dot. -/
def endsWithDot (ts : List Token) : Prop :=
  ∃ t, t.kind = .dot ∧ ts.getLast? = some t

/-- The body of a program does not end with a dot, so that a dot at the end is that of the
program. -/
theorem DerivesBody.not_endsWithDot {b : Body} {bs : List Token}
    (hb : DerivesBody lenient b bs) (front : List Token) : ¬ endsWithDot (front ++ bs) := by
  cases hb with
  | @block word endWord ns ts hw hn he =>
    rintro ⟨t, ht, hlast⟩
    have hts : front ++ word :: (ts ++ [endWord]) = (front ++ word :: ts) ++ [endWord] := by simp
    rw [hts, List.getLast?_concat] at hlast
    obtain rfl : endWord = t := by simpa using hlast
    rw [he] at ht
    exact absurd ht (by decide)

/-- A program is read as its declarations and its body are. -/
theorem program_of_parts {name : String} {declared : List Node} {b : Body}
    {hs us ds bs es : List Token} {faults' : List GrammarFault} (hh : DerivesHeading name hs)
    (hu : DerivesUnits us) (hends : endsTypeSection (kindAhead (ds ++ (bs ++ (es ++ rest)))) = true)
    (hd : declarations finish (ds ++ (bs ++ (es ++ rest))) = ⟨declared, ds.length, faults⟩)
    (hbs : bs ≠ []) (hb : body finish (bs ++ (es ++ rest)) = ⟨b, bs.length, faults'⟩)
    (he : DerivesDot es) (hdot : es = [] → kindAhead rest ≠ .dot) :
    let ts := hs ++ (us ++ (ds ++ (bs ++ es)))
    program finish (ts ++ rest) =
      ⟨⟨name, declared, b, firstLine ts⟩, ts.length, faults ++ faults'⟩ := by
  have huses : kindAhead (ds ++ (bs ++ (es ++ rest))) ≠ .keyword .uses := by
    intro hk
    rw [hk] at hends
    exact absurd hends (by decide)
  have hh' : heading finish (hs ++ (us ++ (ds ++ (bs ++ (es ++ rest))))) =
      ⟨name, hs.length, []⟩ := heading_of_derives hh fun _ => kindAhead_units hu hends
  have hu' : units (us ++ (ds ++ (bs ++ (es ++ rest)))) = ⟨(), us.length, []⟩ :=
    units_of_derives hu fun _ => huses
  obtain ⟨dot, he'⟩ := accept_dot he hdot
  have hne : hs ++ (us ++ (ds ++ (bs ++ es))) ≠ [] := by simp [hbs]
  have hl : (next finish (hs ++ (us ++ (ds ++ (bs ++ (es ++ rest)))))).line =
      firstLine (hs ++ (us ++ (ds ++ (bs ++ es)))) := by
    simpa using line_next finish hne rest
  simp [program, hh', hu', hd, hb, he', hl, Step.mk_andThen_mk, Nat.add_assoc]

/-- **Reading follows the grammar of programs.**  Behind a program without a dot there must be none
that would be taken for it. -/
theorem program_of_derives {p : Program} (h : DerivesProgram lenient p ts) (rest : List Token)
    (hr : kindAhead rest = .dot → endsWithDot ts) :
    program finish (ts ++ rest) = ⟨p, ts.length, []⟩ := by
  cases h with
  | @program name declared b hs us ds bs es hh hu hd hb he =>
    have hbegin : kindAhead (bs ++ (es ++ rest)) = .keyword .begin := hb.begins _
    have hbs : bs ≠ [] := by
      cases hb with
      | block _ _ _ => simp
    refine program_of_parts hh hu (hd.begins hbegin) (declarations_of_derives hd hbegin) hbs
      (body_of_derives hb _) he ?_
    -- Without a dot of its own the program ends with the word of its body.
    rintro rfl hk
    exact hb.not_endsWithDot (hs ++ (us ++ ds)) (by simpa using hr hk)

end Grammar
end PascalCheck
