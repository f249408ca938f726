import PascalCheck.Proofs.Grammar.ExpressionExactness
import PascalCheck.Proofs.Grammar.StatementReading

/-! Statements that are read without a fault are those that the lenient grammar derives.

For the rule of conditionals this is not enough: its first branch has to be one that takes no
`else`.  So each rule is shown to take an `else` wherever the statement that it read could
(`IsExactStatement`). -/
namespace PascalCheck
namespace Grammar

variable {finish : EndMark} {lenient : Bool}

/-! ### Statements without statements in them -/

theorem assignment_of_faultless {name : Token} {tokens : List Token}
    (hn : name.kind = .identifier) (h : (assignment finish name tokens).faults = []) :
    IsExact (assignment finish name)
      (fun n ts => n.isClosed = true ∧ DerivesStatement lenient (.statement n) (name :: ts))
      tokens := by
  by_cases hb : startsWith .leftBracket tokens = true
  · obtain ⟨opening, inside, ho, rfl⟩ := (startsWith_iff (by decide)).mp hb
    simp [assignment, hb] at h
    obtain ⟨i, is, after, hi, rfl, hs⟩ := expression_of_faultless h.1
    simp [hs] at h
    obtain ⟨closing, after, hc, rfl⟩ := expect_of_faultless h.1
    simp [expect_cons hc, Nat.add_assoc] at h
    obtain ⟨becomes, after, ha, rfl⟩ := expect_of_faultless h.1
    simp [expect_cons ha] at h
    obtain ⟨v, vs, rest, hv, rfl, hs'⟩ := expression_of_faultless h
    refine ⟨_, _, rest, ⟨rfl, .assignment hn (.index ho hi hc) ha hv⟩, by simp, ?_⟩
    simp [assignment, startsWith, ho, hs, expect_cons hc, expect_cons ha, hs', Nat.add_assoc]
    omega
  · simp [assignment, hb] at h
    obtain ⟨becomes, after, ha, rfl⟩ := expect_of_faultless h.1
    simp [expect_cons ha] at h
    obtain ⟨v, vs, rest, hv, rfl, hs⟩ := expression_of_faultless h
    refine ⟨_, _, rest, ⟨rfl, .assignment hn .none ha hv⟩, by simp, ?_⟩
    simp [assignment, startsWith, ha, expect_cons ha, hs, Nat.add_comm]

theorem procedureCall_of_faultless {name : Token} {tokens : List Token}
    (hn : name.kind = .identifier) (h : (procedureCall finish name tokens).faults = []) :
    IsExact (procedureCall finish name)
      (fun n ts => n.isClosed = true ∧ DerivesStatement lenient (.statement n) (name :: ts))
      tokens := by
  by_cases hb : startsWith .leftParen tokens = true
  · obtain ⟨opening, inside, ho, rfl⟩ := (startsWith_iff (by decide)).mp hb
    simp [procedureCall, hb] at h
    obtain ⟨hp, hs⟩ | ⟨es, ts, after, hes, rfl, hs⟩ := arguments_of_faultless h.1
    · obtain ⟨closing, after, hc, rfl⟩ := (startsWith_iff (by decide)).mp hp
      refine ⟨_, _, after, ⟨rfl, .call hn (.empty ho hc)⟩, rfl, ?_⟩
      simp [procedureCall, startsWith, ho, hs, expect_cons hc]
    · simp [hs] at h
      obtain ⟨closing, after, hc, rfl⟩ := expect_of_faultless h
      refine ⟨_, _, after, ⟨rfl, .call hn (.list ho hes hc)⟩, by simp, ?_⟩
      simp [procedureCall, startsWith, ho, hs, expect_cons hc]
      omega
  · refine ⟨_, [], tokens, ⟨rfl, .call hn .none⟩, rfl, ?_⟩
    simp [procedureCall, hb]

theorem format_of_faultless {tokens : List Token} (h : (format finish tokens).faults = []) :
    kindAhead tokens ≠ .colon ∨ ∃ colon e ts rest, colon.kind = .colon ∧
      Derives (.expr .expression e) ts ∧ tokens = colon :: (ts ++ rest) ∧
      format finish (colon :: (ts ++ rest)) = ⟨e, 1 + ts.length, []⟩ := by
  by_cases hs : startsWith .colon tokens = true
  · obtain ⟨colon, inside, hc, rfl⟩ := (startsWith_iff (by decide)).mp hs
    simp [format, startsWith, hc] at h
    obtain ⟨e, ts, rest, he, rfl, he'⟩ := expression_of_faultless h
    exact .inr ⟨colon, e, ts, rest, hc, he, rfl, by simp [format, startsWith, hc, he']⟩
  · exact .inl (by simpa [startsWith_eq] using hs)

theorem writeArgument_of_faultless {tokens : List Token}
    (h : (writeArgument finish tokens).faults = []) :
    IsExact (writeArgument finish) DerivesWriteArgument tokens := by
  have hf : (expression finish tokens).faults = [] := by
    rw [writeArgument] at h
    split at h <;> simp_all
  obtain ⟨v, vs, after, hv, rfl, hs⟩ := expression_of_faultless hf
  by_cases hc : startsWith .colon after = true
  · simp [writeArgument, hs, hc] at h
    obtain hf | ⟨colon, w, ws, after', hcolon, hw, rfl, hs'⟩ := format_of_faultless h.1
    · simp [startsWith_eq, hf] at hc
    · simp [hs'] at h
      obtain hf | ⟨colon', d, ds, rest, hcolon', hd, rfl, hs''⟩ := format_of_faultless h
      · refine ⟨_, _, after', .width hv hcolon hw, by simp, ?_⟩
        simp [writeArgument, hs, hs', hc, format_of_none hf, Nat.add_comm]
      · refine ⟨_, _, rest, .decimals hv hcolon hw hcolon' hd, by simp, ?_⟩
        simp [writeArgument, hs, hs', hs'', hc]
        omega
  · exact ⟨_, vs, after, .plain hv, rfl, by simp [writeArgument, hs, hc]⟩

theorem writeStatement_of_faultless {word : Token} {tokens : List Token}
    (hw : word.kind = .keyword .write ∨ word.kind = .keyword .writeln)
    (h : (writeStatement finish word tokens).faults = []) :
    IsExact (writeStatement finish word)
      (fun n ts => n.isClosed = true ∧ DerivesStatement lenient (.statement n) (word :: ts))
      tokens := by
  rw [writeStatement_eq] at h
  obtain ⟨_, ts, rest, ⟨as, rfl, has⟩, rfl, hs⟩ :=
    parenthesized_of_faultless isLoop_moreWriteArguments (by decide)
      (fun tokens hf => .inl ((writeArgument_of_faultless hf).mono fun a ts ha => ⟨a, rfl, ha⟩)) h
  refine ⟨_, ts, rest, ⟨rfl, .write hw has⟩, rfl, ?_⟩
  rw [writeStatement_eq, hs]
  rfl

/-- A target that is read without a fault is one. -/
theorem target_of_faultless {tokens : List Token} (h : (target finish tokens).faults = []) :
    IsExact (target finish) (fun as ts => ∃ a, as = [a] ∧ DerivesTarget a ts) tokens := by
  have hf : (expect finish .identifier tokens).faults = [] := by
    rw [target] at h
    split at h
    · simpa using h
    · dsimp only at h
      split at h <;> simp_all
  obtain ⟨name, after, hn, rfl⟩ := expect_of_faultless hf
  by_cases hb : kindAhead after = .leftBracket
  · obtain ⟨opening, inside, ho, rfl⟩ := cons_of_kindAhead (by decide) hb
    simp [target, expect_cons hn, startsWith, ho] at h
    obtain ⟨i, ts, after, hi, rfl, hs⟩ := expression_of_faultless h.1
    simp [hs] at h
    obtain ⟨closing, rest, hc, rfl⟩ := expect_of_faultless h
    refine ⟨_, _, rest, ⟨_, rfl, .element hn ho hi hc⟩, by simp, ?_⟩
    simp [target, expect_cons hn, startsWith, ho, hs, expect_cons hc]
    omega
  · refine ⟨_, [name], after, ⟨_, rfl, .name hn⟩, rfl, ?_⟩
    simp [target, expect_cons hn, startsWith_eq, hb]

theorem readStatement_of_faultless {word : Token} {tokens : List Token}
    (hw : word.kind = .keyword .read ∨ word.kind = .keyword .readln)
    (h : (readStatement finish word tokens).faults = []) :
    IsExact (readStatement finish word)
      (fun n ts => n.isClosed = true ∧ DerivesStatement lenient (.statement n) (word :: ts))
      tokens := by
  rw [readStatement_eq] at h
  obtain ⟨_, ts, rest, ⟨as, rfl, has⟩, rfl, hs⟩ :=
    parenthesized_of_faultless isLoop_moreTargets (by decide)
      (fun tokens hf => .inl (target_of_faultless hf)) h
  refine ⟨_, ts, rest, ⟨rfl, .read hw has⟩, rfl, ?_⟩
  rw [readStatement_eq, hs]
  rfl

/-! ### Statements with statements in them -/

/-- What a rule reads behind the tokens in front is a derived statement with them, and it is closed
where an `else` follows. -/
def IsExactStatement (rule : List Token → Step Node) (front tokens : List Token) : Prop :=
  ∃ n ts rest, DerivesStatement true (.statement n) (front ++ ts) ∧
    (kindAhead rest = .keyword .else → n.isClosed = true) ∧ tokens = ts ++ rest ∧
    rule (ts ++ rest) = ⟨n, ts.length, []⟩

/-- A statement that takes no `else` is closed whatever follows. -/
theorem IsExact.statement {rule : List Token → Step Node} {first : Token} {tokens : List Token}
    (h : IsExact rule (fun n ts => n.isClosed = true ∧
      DerivesStatement true (.statement n) (first :: ts)) tokens) :
    IsExactStatement rule [first] tokens := by
  obtain ⟨n, ts, rest, ⟨hc, hn⟩, ht, hr⟩ := h
  exact ⟨n, ts, rest, hn, fun _ => hc, ht, hr⟩

theorem IsExactStatement.congr {rule rule' : List Token → Step Node} {front tokens : List Token}
    (h : IsExactStatement rule front tokens) (heq : rule' tokens = rule tokens) :
    IsExactStatement rule' front tokens := by
  obtain ⟨n, ts, rest, hn, he, rfl, hr⟩ := h
  exact ⟨n, ts, rest, hn, he, rfl, heq.trans hr⟩

/-- The rule for a statement is exact on the tokens. -/
def StatementExact (finish : EndMark) (tokens : List Token) : Prop :=
  (statement finish tokens).faults = [] → IsExactStatement (statement finish) [] tokens

/-- The rule for the statements of a list is exact on the tokens. -/
def StatementsExact (finish : EndMark) (tokens : List Token) : Prop :=
  (statements finish tokens).faults = [] →
    IsExact (statements finish) (fun ns => DerivesStatement true (.statements ns)) tokens

theorem whileStatement_of_faultless {word : Token} {tokens : List Token}
    (hw : word.kind = .keyword .while)
    (ih : ∀ rest, rest.length ≤ tokens.length → StatementExact finish rest)
    (h : (whileStatement finish word.line tokens).faults = []) :
    IsExactStatement (whileStatement finish word.line) [word] tokens := by
  rw [whileStatement] at h
  simp at h
  obtain ⟨c, cs, after, hc, rfl, hs⟩ := expression_of_faultless h.1
  simp [hs] at h
  obtain ⟨doWord, inside, hd, rfl⟩ := expect_of_faultless h.1
  simp [expect_cons hd] at h
  obtain ⟨n, ns, rest, hn, he, rfl, hr⟩ := ih inside (by simp; omega) h
  refine ⟨_, cs ++ doWord :: ns, rest, .whileDo hw hc hd hn, ?_, by simp, ?_⟩
  · simpa [Node.isClosed] using he
  · rw [List.append_assoc, List.cons_append, whileStatement]
    simp [hs, expect_cons hd, hr]
    omega

theorem direction_of_faultless {tokens : List Token}
    (h : (direction finish tokens).faults = []) :
    ∃ word rest downward,
      word.kind = .keyword (directionWord downward) ∧ tokens = word :: rest := by
  by_cases hd : kindAhead tokens = .keyword .downto
  · obtain ⟨word, rest, hw, rfl⟩ := cons_of_kindAhead (by decide) hd
    exact ⟨word, rest, true, hw, rfl⟩
  · by_cases ht : kindAhead tokens = .keyword .to
    · obtain ⟨word, rest, hw, rfl⟩ := cons_of_kindAhead (by decide) ht
      exact ⟨word, rest, false, hw, rfl⟩
    · simp [direction, startsWith_eq, hd, ht, refuse] at h

/-- The end of a loop with a counter may be absent. -/
theorem bound_of_faultless {tokens : List Token} (h : (bound finish tokens).faults = []) :
    IsExact (bound finish) (DerivesBound true) tokens := by
  by_cases hd : kindAhead tokens = .keyword .do
  · exact ⟨.absent, [], tokens, .none rfl, rfl, by simp [bound, startsWith_eq, hd]⟩
  · simp [bound, startsWith_eq, hd] at h
    obtain ⟨e, ts, rest, he, rfl, hs⟩ := expression_of_faultless h
    exact ⟨e, ts, rest, .bound he, rfl, by simp [bound, startsWith_eq, hd, hs]⟩

theorem forStatement_of_faultless {word : Token} {tokens : List Token}
    (hw : word.kind = .keyword .for)
    (ih : ∀ rest, rest.length ≤ tokens.length → StatementExact finish rest)
    (h : (forStatement finish word.line tokens).faults = []) :
    IsExactStatement (forStatement finish word.line) [word] tokens := by
  rw [forStatement] at h
  simp at h
  obtain ⟨counter, after, hn, rfl⟩ := expect_of_faultless h.1
  simp [expect_cons hn] at h
  obtain ⟨becomes, after, hb, rfl⟩ := expect_of_faultless h.1
  simp [expect_cons hb, Nat.add_assoc] at h
  obtain ⟨a, as, after, ha, rfl, hs⟩ := expression_of_faultless h.1
  simp [hs] at h
  obtain ⟨direction, after, downward, hd, rfl⟩ := direction_of_faultless h.1
  simp [direction_cons hd] at h
  obtain ⟨b, bs, after, hbs, rfl, hs'⟩ := bound_of_faultless h.1
  simp [hs'] at h
  obtain ⟨doWord, inside, hdo, rfl⟩ := expect_of_faultless h.1
  simp [expect_cons hdo] at h
  obtain ⟨n, ns, rest, hbody, he, rfl, hr⟩ := ih inside (by simp; omega) h
  refine ⟨_, counter :: becomes :: (as ++ direction :: (bs ++ doWord :: ns)), rest,
    .forDo hw hn hb ha hd hbs hdo hbody, ?_, by simp, ?_⟩
  · simpa [Node.isClosed] using he
  · simp only [List.cons_append, List.append_assoc]
    rw [forStatement]
    simp [expect_cons hn, expect_cons hb, hs, direction_cons hd, hs', expect_cons hdo, hr, nameOr,
      Nat.add_assoc]
    omega

theorem ifStatement_of_faultless {word : Token} {tokens : List Token}
    (hw : word.kind = .keyword .if)
    (ih : ∀ rest, rest.length ≤ tokens.length → StatementExact finish rest)
    (h : (ifStatement finish word.line tokens).faults = []) :
    IsExactStatement (ifStatement finish word.line) [word] tokens := by
  have hf : (expression finish tokens).faults = [] ∧ (expect finish (.keyword .then)
      (tokens.drop (expression finish tokens).used)).faults = [] := by
    rw [ifStatement] at h
    dsimp only at h
    split at h <;> split at h <;> simp at h <;> simp [h]
  obtain ⟨c, cs, after, hc, rfl, hs⟩ := expression_of_faultless hf.1
  simp only [hs, List.drop_left] at hf
  obtain ⟨thenWord, inside, ht, rfl⟩ := expect_of_faultless hf.2
  by_cases he : kindAhead inside = .keyword .else
  · -- The branch in front of the `else` is empty.
    obtain ⟨elseWord, inside, he, rfl⟩ := cons_of_kindAhead (by decide) he
    rw [ifStatement] at h
    simp [hs, expect_cons ht, startsWith_eq, he, Nat.add_assoc] at h
    obtain ⟨m, ms, rest, hm, hm', rfl, hr⟩ := ih inside (by simp; omega) h
    refine ⟨_, cs ++ thenWord :: ([] ++ elseWord :: ms), rest,
      .ifElse hw hc ht .empty (.inl rfl) he hm, ?_, by simp, ?_⟩
    · simpa [Node.isClosed] using hm'
    · simp only [List.append_assoc, List.cons_append, List.nil_append]
      rw [ifStatement]
      simp [hs, expect_cons ht, startsWith_eq, he, hr, Nat.add_assoc]
      omega
  · have hb : (statement finish inside).faults = [] := by
      rw [ifStatement] at h
      simp [hs, expect_cons ht, startsWith_eq, he] at h
      split at h <;> simp_all
    obtain ⟨n, ns, after, hn, hn', rfl, hr⟩ := ih inside (by simp; omega) hb
    by_cases he' : kindAhead after = .keyword .else
    · -- The branch is closed, since the `else` was left to the conditional.
      obtain ⟨elseWord, inside, hel, rfl⟩ := cons_of_kindAhead (by decide) he'
      rw [ifStatement] at h
      simp [hs, expect_cons ht, startsWith_eq, he, hr, hel, Nat.add_assoc] at h
      obtain ⟨m, ms, rest, hm, hm', rfl, hr'⟩ := ih inside (by simp; omega) h
      refine ⟨_, cs ++ thenWord :: (ns ++ elseWord :: ms), rest,
        .ifElse hw hc ht hn (.inr (hn' he')) hel hm, ?_, by simp, ?_⟩
      · simpa [Node.isClosed] using hm'
      · simp only [List.append_assoc, List.cons_append]
        rw [ifStatement]
        simp [hs, expect_cons ht, startsWith_eq, he, hr, hel, hr', Nat.add_assoc]
        omega
    · refine ⟨_, cs ++ thenWord :: ns, after, .ifThen hw hc ht hn, ?_, by simp, ?_⟩
      · exact fun hk => absurd hk he'
      · simp only [List.append_assoc, List.cons_append]
        rw [ifStatement]
        simp [hs, expect_cons ht, startsWith_eq, he, hr, he', Nat.add_assoc]
        omega

theorem repeatStatement_of_faultless {word : Token} {tokens : List Token}
    (hw : word.kind = .keyword .repeat) (ih : StatementsExact finish tokens)
    (h : (repeatStatement finish word.line tokens).faults = []) :
    IsExactStatement (repeatStatement finish word.line) [word] tokens := by
  rw [repeatStatement] at h
  simp at h
  obtain ⟨ns, ts, after, hns, rfl, hs⟩ := ih h.1
  simp [hs] at h
  obtain ⟨untilWord, after, hu, rfl⟩ := expect_of_faultless h.1
  simp [expect_cons hu] at h
  obtain ⟨c, cs, rest, hc, rfl, hs'⟩ := expression_of_faultless h
  refine ⟨_, ts ++ untilWord :: cs, rest, .repeatUntil hw hns hu hc, fun _ => rfl, by simp, ?_⟩
  rw [List.append_assoc, List.cons_append, repeatStatement]
  simp [hs, expect_cons hu, hs']
  omega

theorem block_of_statementsExact {tokens : List Token} (ih : StatementsExact finish tokens)
    (h : (block finish tokens).faults = []) :
    ∃ ns ts endWord rest, DerivesStatement true (.statements ns) ts ∧
      endWord.kind = .keyword .end ∧ tokens = ts ++ endWord :: rest ∧
      block finish (ts ++ endWord :: rest) = ⟨ns, ts.length + 1, []⟩ := by
  rw [block] at h
  simp at h
  obtain ⟨ns, ts, after, hns, rfl, hs⟩ := ih h.1
  simp [hs] at h
  obtain ⟨endWord, rest, he, rfl⟩ := expect_of_faultless h
  exact ⟨ns, ts, endWord, rest, hns, he, rfl, block_of_statements hs he⟩

/-- A statement is exact behind its first token, if the statements in it are. -/
theorem statementFrom_of_faultless {first : Token} {tokens : List Token}
    (ih : ∀ rest, rest.length ≤ tokens.length → StatementExact finish rest)
    (ihs : StatementsExact finish tokens)
    (h : (statementFrom finish first tokens).faults = []) :
    IsExactStatement (statementFrom finish first) [first] tokens := by
  rw [statementFrom] at h
  split at h
  case h_1 hw =>
    split at h
    next hb =>
      exact (assignment_of_faultless hw h).statement.congr (by rw [statementFrom]; simp [hw, hb])
    next hb =>
      exact (procedureCall_of_faultless hw h).statement.congr (by
        rw [statementFrom]; simp [hw, hb])
  case h_2 hw =>
    exact (ifStatement_of_faultless hw ih h).congr (by rw [statementFrom]; simp [hw])
  case h_3 hw =>
    exact (whileStatement_of_faultless hw ih h).congr (by rw [statementFrom]; simp [hw])
  case h_4 hw =>
    exact (forStatement_of_faultless hw ih h).congr (by rw [statementFrom]; simp [hw])
  case h_5 hw =>
    exact (repeatStatement_of_faultless hw ihs h).congr (by rw [statementFrom]; simp [hw])
  case h_6 hw =>
    exact (writeStatement_of_faultless (.inl hw) h).statement.congr (by
      rw [statementFrom]; simp [hw])
  case h_7 hw =>
    exact (writeStatement_of_faultless (.inr hw) h).statement.congr (by
      rw [statementFrom]; simp [hw])
  case h_8 hw =>
    exact (readStatement_of_faultless (.inl hw) h).statement.congr (by
      rw [statementFrom]; simp [hw])
  case h_9 hw =>
    exact (readStatement_of_faultless (.inr hw) h).statement.congr (by
      rw [statementFrom]; simp [hw])
  case h_10 hw =>
    obtain ⟨ns, ts, endWord, rest, hns, he, rfl, hs⟩ := block_of_statementsExact ihs h
    refine ⟨_, ts ++ [endWord], rest, .block hw hns he, fun _ => rfl, by simp, ?_⟩
    rw [statementFrom]
    simp [hw, hs]
  case h_11 => simp at h

/-- A list of statements is exact, if it is behind its first statement and each statement is. -/
theorem statements_of_faultless {t : Token} {inside : List Token}
    (hfrom : (statementFrom finish t inside).faults = [] →
      IsExactStatement (statementFrom finish t) [t] inside)
    (ihs : ∀ rest, rest.length ≤ inside.length → StatementsExact finish rest) :
    StatementsExact finish (t :: inside) := by
  intro h
  by_cases hc : closesStatements t.kind = true
  · -- The list ends here, and an empty statement is all there is of it.
    refine ⟨[], [], t :: inside, .lastStatement .empty, rfl, ?_⟩
    exact statements_of_end hc
  by_cases hs : t.kind = .semicolon
  · rw [statements_semicolon hs] at h
    obtain ⟨ns, ts, rest, hns, rfl, hr⟩ := ihs inside (by simp) h
    refine ⟨ns, [] ++ t :: ts, rest, .semicolon .empty hs hns, rfl, ?_⟩
    rw [List.nil_append, List.cons_append, statements_semicolon hs, hr]
    simp [Nat.add_comm]
  · rw [statements] at h
    simp [hc, hs] at h
    obtain ⟨n, ts, after, hn, -, rfl, hr⟩ := hfrom h.1
    simp [hr] at h
    -- Behind a statement there is a semicolon, or the list ends; all else is a fault.
    by_cases hk : kindAhead after = .semicolon
    · obtain ⟨semicolon, last, hsc, rfl⟩ := cons_of_kindAhead (by decide) hk
      simp [separator, startsWith, hsc] at h
      obtain ⟨ns, rs, rest, hns, rfl, hr'⟩ := ihs last (by simp; omega) h
      refine ⟨n.listed ++ ns, (t :: ts) ++ semicolon :: rs, rest, .semicolon hn hsc hns,
        by simp, ?_⟩
      rw [List.append_assoc, List.cons_append, statements]
      cases ha : n.isAbsent <;>
        simp [hc, hs, hr, hr', separator, startsWith, hsc, Node.listed, ha] <;> omega
    · by_cases hcl : closesStatements (kindAhead after) = true
      · refine ⟨n.listed, t :: ts, after, .lastStatement hn, by simp, ?_⟩
        rw [List.cons_append, statements]
        cases ha : n.isAbsent <;>
          simp [hc, hs, hr, separator, startsWith_eq, hk, hcl, statements_of_end hcl, Node.listed,
            ha] <;> omega
      · simp [separator, startsWith_eq, hk, hcl, refuse] at h

/-- **Statements are read without a fault only from tokens that the lenient grammar derives from
them.**  The induction is on the number of tokens: a rule looks at fewer tokens than the one that
calls it, once the first token of the statement is used. -/
theorem statement_and_statements_exact (tokens : List Token) :
    StatementExact finish tokens ∧ StatementsExact finish tokens := by
  generalize hn : tokens.length = n
  induction n using Nat.strongRecOn generalizing tokens with
  | ind n ih =>
    match tokens with
    | [] =>
      refine ⟨fun _ => ⟨.absent, [], [], .empty, fun hk => by simp at hk, rfl, ?_⟩, fun _ => ?_⟩
      · rw [List.nil_append, statement]; rfl
      · exact ⟨[], [], [], .lastStatement .empty, rfl, by rw [List.nil_append, statements]; rfl⟩
    | t :: inside =>
      have ihs : ∀ rest, rest.length ≤ inside.length →
          StatementExact finish rest ∧ StatementsExact finish rest := fun rest hl =>
        ih rest.length (by simp at hn; omega) rest rfl
      have hfrom : (statementFrom finish t inside).faults = [] →
          IsExactStatement (statementFrom finish t) [t] inside :=
        statementFrom_of_faultless (fun rest hl => (ihs rest hl).1) (ihs inside (Nat.le_refl _)).2
      refine ⟨fun h => ?_, statements_of_faultless hfrom fun rest hl => (ihs rest hl).2⟩
      by_cases hc : t.kind = .semicolon ∨ closesStatements t.kind = true
      · refine ⟨.absent, [], t :: inside, .empty, fun hk => ?_, rfl, ?_⟩
        · rw [kindAhead_cons] at hk
          simp [hk, closesStatements] at hc
        · rw [List.nil_append, statement]
          simp [hc]
      · rw [statement] at h
        simp only [hc, if_false, Step.past_faults] at h
        obtain ⟨node, ts, rest, hd, he, rfl, hr⟩ := hfrom h
        refine ⟨node, t :: ts, rest, hd, he, rfl, ?_⟩
        rw [List.cons_append, statement]
        simp [hc, hr, Nat.add_comm]

/-- The statements of a block are derived by the lenient grammar. -/
theorem block_of_faultless {tokens : List Token}
    (h : (block finish tokens).faults = []) :
    ∃ ns ts endWord rest, DerivesStatement true (.statements ns) ts ∧
      endWord.kind = .keyword .end ∧ tokens = ts ++ endWord :: rest ∧
      block finish (ts ++ endWord :: rest) = ⟨ns, ts.length + 1, []⟩ :=
  block_of_statementsExact (statement_and_statements_exact tokens).2 h

end Grammar
end PascalCheck
