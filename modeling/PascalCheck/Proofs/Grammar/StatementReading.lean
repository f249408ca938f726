import PascalCheck.Proofs.Grammar.ExpressionReading
import PascalCheck.Proofs.Grammar.StatementGrammar

/-! Statements that the grammar derives are read back, before tokens that end them.  What ends a
statement depends on it: an `else` goes on with one that is not closed. -/
namespace PascalCheck

namespace Node

/-- The statement ends before a token of the kind. -/
def endsBefore (node : Node) (kind : TokenKind) : Bool :=
  kind = .semicolon || Grammar.closesStatements kind ||
    (node.isClosed && decide (kind = .keyword .else))

/-- The statement contains no others. -/
def isSimple : Node → Bool
  | assignment .. | call .. | write .. | read .. => true
  | _ => false

end Node

namespace Grammar

/-- A statement that is not empty begins with a token of the kind. -/
def beginsStatement : TokenKind → Bool
  | .identifier | .keyword .if | .keyword .while | .keyword .for | .keyword .repeat
  | .keyword .write | .keyword .writeln | .keyword .read | .keyword .readln
  | .keyword .begin => true
  | _ => false

variable {finish : EndMark} {lenient : Bool} {n : Node} {ts rest : List Token}
  {faults faults' : List GrammarFault}

/-- A statement is empty, or it begins with a token that begins statements. -/
theorem DerivesStatement.begins (h : DerivesStatement lenient (.statement n) ts) :
    n = .absent ∧ ts = [] ∨
      n.isAbsent = false ∧ ∃ t after, beginsStatement t.kind = true ∧ ts = t :: after := by
  cases h with
  | empty => exact .inl ⟨rfl, rfl⟩
  | assignment hn _ _ _ | call hn _ => exact .inr ⟨rfl, _, _, by simp [hn, beginsStatement], rfl⟩
  | ifThen hw _ _ _ | ifElse hw _ _ _ _ _ _ | whileDo hw _ _ _ | forDo hw _ _ _ _ _ _ _
  | repeatUntil hw _ _ _ | block hw _ _ =>
    exact .inr ⟨rfl, _, _, by simp [hw, beginsStatement], rfl⟩
  | write hw _ | read hw _ =>
    exact .inr ⟨rfl, _, _, by rcases hw with hw | hw <;> simp [hw, beginsStatement], rfl⟩

/-! ### Tokens that end a statement -/

theorem endsBefore_iff {kind : TokenKind} :
    n.endsBefore kind = true ↔
      kind = .semicolon ∨ closesStatements kind = true ∨
        n.isClosed = true ∧ kind = .keyword .else := by
  simp [Node.endsBefore, or_assoc]

/-- The tokens that end statements prolong no expression, and make neither an assignment nor a call
with arguments out of a name. -/
theorem ne_of_endsBefore {kind : TokenKind} (h : n.endsBefore kind = true) :
    Level.expression.prolongs kind = false ∧ kind ≠ .leftParen ∧ kind ≠ .leftBracket ∧
      kind ≠ .assign := by
  rcases endsBefore_iff.mp h with rfl | h | ⟨-, rfl⟩
  · decide
  · revert h
    rcases kind with _ | _ | _ | _ | w | _ <;> first | decide | (cases w <;> decide)
  · decide

theorem ne_of_beginsStatement {kind : TokenKind} (h : beginsStatement kind = true) :
    kind ≠ .semicolon ∧ closesStatements kind = false ∧ kind ≠ .keyword .else := by
  revert h
  rcases kind with _ | _ | _ | _ | w | _ <;> first | decide | (cases w <;> decide)

/-! ### Lists in parentheses -/

theorem procedureCall_of_derives {name : Token} {es : List Expr}
    (h : Parenthesized (fun es => Derives (.arguments es)) es ts)
    (hr : kindAhead rest ≠ .leftParen) :
    procedureCall finish name (ts ++ rest) = ⟨.call name.text es name.line, ts.length, []⟩ := by
  cases h with
  | none => simp [procedureCall, startsWith_eq, hr]
  | @empty opening closing ho hc =>
    have hs : arguments finish (closing :: rest) = ⟨[], 0, []⟩ := by
      rw [arguments]; simp [startsWith, hc]
    simp [procedureCall, startsWith, ho, hs, expect_cons hc]
  | @list opening closing _ ts ho hes hc =>
    have hs : arguments finish (ts ++ closing :: rest) = ⟨_, ts.length, []⟩ :=
      arguments_of_derives hes _ hc
    simp [procedureCall, startsWith, ho, hs, expect_cons hc]
    omega

theorem format_of_colon {colon : Token} {e : Expr} (hc : colon.kind = .colon)
    (h : Derives (.expr .expression e) ts)
    (hr : Level.expression.prolongs (kindAhead rest) = false) :
    format finish (colon :: (ts ++ rest)) = ⟨e, 1 + ts.length, []⟩ := by
  simp [format, startsWith, hc, expression_of_derives h rest hr]

theorem format_of_none (hr : kindAhead rest ≠ .colon) :
    format finish rest = ⟨.absent, 0, []⟩ := by
  simp [format, startsWith_eq, hr]

/-- A value to write is read before a comma or a parenthesis. -/
theorem writeArgument_of_derives {a : WriteArgument} (h : DerivesWriteArgument a ts)
    (rest : List Token)
    (hr : kindAhead rest = .comma ∨ kindAhead rest = .rightParen) :
    writeArgument finish (ts ++ rest) = ⟨a, ts.length, []⟩ := by
  have hrp : Level.expression.prolongs (kindAhead rest) = false := by
    rcases hr with hr | hr <;> rw [hr] <;> rfl
  have hrc : kindAhead rest ≠ .colon := by rcases hr with hr | hr <;> rw [hr] <;> decide
  cases h with
  | plain hv =>
    simp [writeArgument, expression_of_derives hv rest hrp, startsWith_eq, hrc]
  | @width v w vs ws colon hv hc hw =>
    have hv' : expression finish (vs ++ colon :: (ws ++ rest)) = ⟨v, vs.length, []⟩ :=
      expression_of_derives hv _ (by rw [kindAhead_cons, hc]; rfl)
    have hw' : format finish (colon :: (ws ++ rest)) = ⟨w, 1 + ws.length, []⟩ :=
      format_of_colon hc hw hrp
    simp [writeArgument, hv', hw', startsWith, hc, format_of_none hrc]
    omega
  | @decimals v w d vs ws ds colon colon' hv hc hw hc' hd =>
    have hv' : expression finish (vs ++ colon :: (ws ++ colon' :: (ds ++ rest))) =
        ⟨v, vs.length, []⟩ :=
      expression_of_derives hv _ (by rw [kindAhead_cons, hc]; rfl)
    have hw' : format finish (colon :: (ws ++ colon' :: (ds ++ rest))) = ⟨w, 1 + ws.length, []⟩ :=
      format_of_colon hc hw (by rw [kindAhead_cons, hc']; rfl)
    have hd' : format finish (colon' :: (ds ++ rest)) = ⟨d, 1 + ds.length, []⟩ :=
      format_of_colon hc' hd hrp
    simp [writeArgument, hv', hw', hd', startsWith, hc]
    omega

theorem isLoop_moreWriteArguments :
    IsLoop .comma .items (writeArgument finish) (moreWriteArguments finish) := by
  intro tokens
  cases tokens <;> (rw [moreWriteArguments]; rfl)

theorem DerivesWriteArgument.ne_rightParen {a : WriteArgument} (h : DerivesWriteArgument a ts)
    (rest : List Token) : kindAhead (ts ++ rest) ≠ .rightParen := by
  cases h with
  | plain hv => exact hv.ne_rightParen rest
  | width hv _ _ | decimals hv _ _ _ _ =>
    rw [List.append_assoc]
    exact hv.ne_rightParen _

/-- A statement that writes is its list in parentheses. -/
theorem writeStatement_eq (word : Token) (tokens : List Token) :
    writeStatement finish word tokens =
      let listed := parenthesized finish .items (writeArgument finish) (moreWriteArguments finish)
        tokens
      listed.as (.write word.text listed.value word.line) := by
  rw [writeStatement, parenthesized]
  split <;> rfl

theorem writeStatement_of_derives {word : Token} {as : List WriteArgument}
    (h : Parenthesized (Separated .comma DerivesWriteArgument) as ts)
    (hr : kindAhead rest ≠ .leftParen) :
    writeStatement finish word (ts ++ rest) = ⟨.write word.text as word.line, ts.length, []⟩ := by
  rw [writeStatement_eq, parenthesized_of_derives isLoop_moreWriteArguments (by decide)
    (fun a ts rest ha => writeArgument_of_derives ha rest)
    (fun a ts rest ha => ha.ne_rightParen rest) h hr]
  rfl

/-- A target is read before a comma or a parenthesis. -/
theorem target_of_derives {a : Target} (h : DerivesTarget a ts) (rest : List Token)
    (hr : kindAhead rest ≠ .leftBracket) :
    target finish (ts ++ rest) = ⟨[a], ts.length, []⟩ := by
  cases h with
  | name ht => simp [target, expect_cons ht, startsWith_eq, hr]
  | @element name opening closing i ts hn ho hi hc =>
    have hi' : expression finish (ts ++ closing :: rest) = ⟨i, ts.length, []⟩ :=
      expression_of_derives hi _ (by rw [kindAhead_cons, hc]; rfl)
    simp [target, expect_cons hn, startsWith, ho, hi', expect_cons hc]
    omega

theorem isLoop_moreTargets :
    IsLoop .comma .optional (target finish) (moreTargets finish) := by
  intro tokens
  cases tokens <;> (rw [moreTargets]; rfl)

theorem DerivesTarget.ne_rightParen {a : Target} (h : DerivesTarget a ts) (rest : List Token) :
    kindAhead (ts ++ rest) ≠ .rightParen := by
  cases h with
  | name ht | element ht _ _ _ => simp [ht]

/-- A statement that reads is its list in parentheses. -/
theorem readStatement_eq (word : Token) (tokens : List Token) :
    readStatement finish word tokens =
      let listed := parenthesized finish .optional (target finish) (moreTargets finish) tokens
      listed.as (.read word.text listed.value word.line) := by
  rw [readStatement, parenthesized]
  split <;> rfl

theorem readStatement_of_derives {word : Token} {as : List Target}
    (h : Parenthesized (Separated .comma DerivesTarget) as ts)
    (hr : kindAhead rest ≠ .leftParen) :
    readStatement finish word (ts ++ rest) = ⟨.read word.text as word.line, ts.length, []⟩ := by
  rw [readStatement_eq, parenthesized_of_derives isLoop_moreTargets (by decide)
    (fun a ts rest ha hk => target_of_derives ha rest (by rcases hk with hk | hk <;> simp [hk]))
    (fun a ts rest ha => ha.ne_rightParen rest) h hr]
  rfl

/-! ### Statements -/

theorem assignment_of_derives {name becomes : Token} {i v : Expr} {is vs : List Token}
    (hi : DerivesIndex i is) (hb : becomes.kind = .assign)
    (hv : Derives (.expr .expression v) vs)
    (hr : Level.expression.prolongs (kindAhead rest) = false) :
    assignment finish name (is ++ becomes :: (vs ++ rest)) =
      ⟨.assignment name.text v i name.line, is.length + 1 + vs.length, []⟩ := by
  have hv' : expression finish (vs ++ rest) = ⟨v, vs.length, []⟩ := expression_of_derives hv rest hr
  cases hi with
  | none => simp [assignment, startsWith, hb, expect_cons hb, hv']
  | @index opening closing _ ts ho hi hc =>
    have hi' : expression finish (ts ++ closing :: (becomes :: (vs ++ rest))) =
        ⟨i, ts.length, []⟩ := expression_of_derives hi _ (by rw [kindAhead_cons, hc]; rfl)
    simp [assignment, startsWith, ho, hi', expect_cons hc, expect_cons hb, hv', Nat.add_assoc]
    omega

theorem statement_cons {t : Token} (h : beginsStatement t.kind = true) (rest : List Token) :
    statement finish (t :: rest) = (statementFrom finish t rest).past 1 := by
  obtain ⟨hs, hc, -⟩ := ne_of_beginsStatement h
  rw [statement]
  simp [hs, hc]

/-- No `else` stands in front of a statement, unless it stands behind an empty one. -/
theorem DerivesStatement.ne_else (h : DerivesStatement lenient (.statement n) ts)
    (hr : ts = [] → kindAhead rest ≠ .keyword .else) :
    kindAhead (ts ++ rest) ≠ .keyword .else := by
  obtain ⟨-, rfl⟩ | ⟨-, t, after, ht, rfl⟩ := h.begins
  · exact hr rfl
  · exact (ne_of_beginsStatement ht).2.2

theorem ifStatement_of_then {thenWord : Token} {c : Expr} {cs : List Token} {line : Int}
    (hc : Derives (.expr .expression c) cs) (ht : thenWord.kind = .keyword .then)
    (hn : statement finish (ts ++ rest) = ⟨n, ts.length, faults⟩)
    (hb : kindAhead (ts ++ rest) ≠ .keyword .else) (hr : kindAhead rest ≠ .keyword .else) :
    ifStatement finish line (cs ++ thenWord :: (ts ++ rest)) =
      ⟨.ifThen c n .absent line, cs.length + 1 + ts.length, faults⟩ := by
  have hc' : expression finish (cs ++ thenWord :: (ts ++ rest)) = ⟨c, cs.length, []⟩ :=
    expression_of_derives hc _ (by rw [kindAhead_cons, ht]; rfl)
  rw [ifStatement]
  simp [hc', expect_cons ht, hn, startsWith_eq, hb, hr, ← List.drop_drop, Nat.add_assoc]

theorem ifStatement_of_else {thenWord elseWord : Token} {c : Expr} {m : Node}
    {cs ms : List Token} {line : Int} (hc : Derives (.expr .expression c) cs)
    (ht : thenWord.kind = .keyword .then)
    (hn : ts = [] ∧ n = .absent ∧ faults = [] ∨
      kindAhead (ts ++ elseWord :: (ms ++ rest)) ≠ .keyword .else ∧
        statement finish (ts ++ elseWord :: (ms ++ rest)) = ⟨n, ts.length, faults⟩)
    (he : elseWord.kind = .keyword .else)
    (hm : statement finish (ms ++ rest) = ⟨m, ms.length, faults'⟩) :
    ifStatement finish line (cs ++ thenWord :: (ts ++ elseWord :: (ms ++ rest))) =
      ⟨.ifThen c n m line, cs.length + 1 + (ts.length + (1 + ms.length)),
        faults ++ faults'⟩ := by
  have hc' : expression finish (cs ++ thenWord :: (ts ++ elseWord :: (ms ++ rest))) =
      ⟨c, cs.length, []⟩ := expression_of_derives hc _ (by rw [kindAhead_cons, ht]; rfl)
  rw [ifStatement]
  obtain ⟨rfl, rfl, rfl⟩ | ⟨hb, hn⟩ := hn
  · rw [List.nil_append] at hc' ⊢
    simp [hc', expect_cons ht, hm, startsWith_eq, he, Nat.add_assoc]
  · simp [hc', expect_cons ht, hn, hm, startsWith_eq, hb, he, Step.mk_andThen_mk, Nat.add_assoc]

theorem whileStatement_of_derives {doWord : Token} {c : Expr} {cs : List Token} {line : Int}
    (hc : Derives (.expr .expression c) cs) (hd : doWord.kind = .keyword .do)
    (hn : statement finish (ts ++ rest) = ⟨n, ts.length, faults⟩) :
    whileStatement finish line (cs ++ doWord :: (ts ++ rest)) =
      ⟨.whileDo c n line, cs.length + 1 + ts.length, faults⟩ := by
  have hc' : expression finish (cs ++ doWord :: (ts ++ rest)) = ⟨c, cs.length, []⟩ :=
    expression_of_derives hc _ (by rw [kindAhead_cons, hd]; rfl)
  rw [whileStatement]
  simp [hc', expect_cons hd, hn, Nat.add_assoc]

/-- The end of a loop with a counter is read before `do`. -/
theorem bound_of_derives {e : Expr} (h : DerivesBound lenient e ts)
    (hr : kindAhead rest = .keyword .do) : bound finish (ts ++ rest) = ⟨e, ts.length, []⟩ := by
  cases h with
  | none => simp [bound, startsWith_eq, hr]
  | bound he =>
    have hb : kindAhead (ts ++ rest) ≠ .keyword .do := by
      intro hk
      have hb := he.begins rest
      rw [hk] at hb
      simp [Phrase.level, Level.begins, beginsFactor, isSign] at hb
    simp [bound, startsWith_eq, hb, expression_of_derives he rest (by rw [hr]; rfl)]

theorem direction_cons {t : Token} {downward : Bool}
    (h : t.kind = .keyword (directionWord downward)) (rest : List Token) :
    direction finish (t :: rest) = ⟨downward, 1, []⟩ := by
  cases downward <;> simp [direction, startsWith, h, directionWord]

theorem forStatement_of_derives {counter becomes word doWord : Token} {a b : Expr}
    {downward : Bool} {as bs : List Token} {line : Int} (hn : counter.kind = .identifier)
    (hb : becomes.kind = .assign) (ha : Derives (.expr .expression a) as)
    (hw : word.kind = .keyword (directionWord downward)) (he : DerivesBound lenient b bs)
    (hd : doWord.kind = .keyword .do)
    (hbody : statement finish (ts ++ rest) = ⟨n, ts.length, faults⟩) :
    forStatement finish line
        (counter :: becomes :: (as ++ word :: (bs ++ doWord :: (ts ++ rest)))) =
      ⟨.forDo counter.text a b downward n line,
        2 + (as.length + (1 + (bs.length + (1 + ts.length)))), faults⟩ := by
  have hp : Level.expression.prolongs word.kind = false := by rw [hw]; cases downward <;> rfl
  have ha' : expression finish (as ++ word :: (bs ++ doWord :: (ts ++ rest))) =
      ⟨a, as.length, []⟩ := expression_of_derives ha _ hp
  have he' : bound finish (bs ++ doWord :: (ts ++ rest)) = ⟨b, bs.length, []⟩ :=
    bound_of_derives he hd
  rw [forStatement]
  simp [expect_cons hn, expect_cons hb, ha', direction_cons hw, he', expect_cons hd, hbody,
    nameOr, Nat.add_assoc]

theorem repeatStatement_of_derives {untilWord : Token} {ns : List Node} {c : Expr}
    {cs : List Token} {line : Int}
    (hs : statements finish (ts ++ untilWord :: (cs ++ rest)) = ⟨ns, ts.length, faults⟩)
    (hu : untilWord.kind = .keyword .until) (hc : Derives (.expr .expression c) cs)
    (hr : Level.expression.prolongs (kindAhead rest) = false) :
    repeatStatement finish line (ts ++ untilWord :: (cs ++ rest)) =
      ⟨.repeatUntil ns c line, ts.length + (1 + cs.length), faults⟩ := by
  rw [repeatStatement]
  simp [hs, expect_cons hu, expression_of_derives hc rest hr, Step.mk_andThen_mk, Nat.add_assoc]

theorem block_of_statements {endWord : Token} {ns : List Node}
    (hs : statements finish (ts ++ endWord :: rest) = ⟨ns, ts.length, faults⟩)
    (he : endWord.kind = .keyword .end) :
    block finish (ts ++ endWord :: rest) = ⟨ns, ts.length + 1, faults⟩ := by
  rw [block]
  simp [hs, expect_cons he, Step.mk_andThen_mk]

/-! ### Statements from their first tokens -/

theorem statement_ifThen {word thenWord : Token} {c : Expr} {cs : List Token}
    (hw : word.kind = .keyword .if) (hc : Derives (.expr .expression c) cs)
    (ht : thenWord.kind = .keyword .then)
    (hn : statement finish (ts ++ rest) = ⟨n, ts.length, faults⟩)
    (hb : kindAhead (ts ++ rest) ≠ .keyword .else) (hr : kindAhead rest ≠ .keyword .else) :
    statement finish (word :: (cs ++ thenWord :: ts) ++ rest) =
      ⟨.ifThen c n .absent word.line, (word :: (cs ++ thenWord :: ts)).length, faults⟩ := by
  rw [List.cons_append, statement_cons (by rw [hw]; rfl), statementFrom]
  simp [hw, ifStatement_of_then hc ht hn hb hr]
  omega

theorem statement_ifElse {word thenWord elseWord : Token} {c : Expr} {m : Node}
    {cs ms : List Token} (hw : word.kind = .keyword .if) (hc : Derives (.expr .expression c) cs)
    (ht : thenWord.kind = .keyword .then)
    (hn : ts = [] ∧ n = .absent ∧ faults = [] ∨
      kindAhead (ts ++ elseWord :: (ms ++ rest)) ≠ .keyword .else ∧
        statement finish (ts ++ elseWord :: (ms ++ rest)) = ⟨n, ts.length, faults⟩)
    (he : elseWord.kind = .keyword .else)
    (hm : statement finish (ms ++ rest) = ⟨m, ms.length, faults'⟩) :
    statement finish (word :: (cs ++ thenWord :: (ts ++ elseWord :: ms)) ++ rest) =
      ⟨.ifThen c n m word.line, (word :: (cs ++ thenWord :: (ts ++ elseWord :: ms))).length,
        faults ++ faults'⟩ := by
  rw [List.cons_append, statement_cons (by rw [hw]; rfl), statementFrom]
  simp [hw, ifStatement_of_else hc ht hn he hm]
  omega

theorem statement_whileDo {word doWord : Token} {c : Expr} {cs : List Token}
    (hw : word.kind = .keyword .while) (hc : Derives (.expr .expression c) cs)
    (hd : doWord.kind = .keyword .do)
    (hn : statement finish (ts ++ rest) = ⟨n, ts.length, faults⟩) :
    statement finish (word :: (cs ++ doWord :: ts) ++ rest) =
      ⟨.whileDo c n word.line, (word :: (cs ++ doWord :: ts)).length, faults⟩ := by
  rw [List.cons_append, statement_cons (by rw [hw]; rfl), statementFrom]
  simp [hw, whileStatement_of_derives hc hd hn]
  omega

theorem statement_forDo {word counter becomes direction doWord : Token} {a b : Expr}
    {downward : Bool} {as bs : List Token} (hw : word.kind = .keyword .for)
    (hn : counter.kind = .identifier) (hb : becomes.kind = .assign)
    (ha : Derives (.expr .expression a) as)
    (hd : direction.kind = .keyword (directionWord downward)) (he : DerivesBound lenient b bs)
    (hdo : doWord.kind = .keyword .do)
    (hbody : statement finish (ts ++ rest) = ⟨n, ts.length, faults⟩) :
    statement finish
        (word :: counter :: becomes :: (as ++ direction :: (bs ++ doWord :: ts)) ++ rest) =
      ⟨.forDo counter.text a b downward n word.line,
        (word :: counter :: becomes :: (as ++ direction :: (bs ++ doWord :: ts))).length,
        faults⟩ := by
  rw [List.cons_append, statement_cons (by rw [hw]; rfl), statementFrom]
  simp [hw, forStatement_of_derives hn hb ha hd he hdo hbody]
  omega

theorem statement_repeatUntil {word untilWord : Token} {ns : List Node} {c : Expr}
    {cs : List Token} (hw : word.kind = .keyword .repeat)
    (hs : statements finish (ts ++ untilWord :: (cs ++ rest)) = ⟨ns, ts.length, faults⟩)
    (hu : untilWord.kind = .keyword .until) (hc : Derives (.expr .expression c) cs)
    (hr : Level.expression.prolongs (kindAhead rest) = false) :
    statement finish (word :: (ts ++ untilWord :: cs) ++ rest) =
      ⟨.repeatUntil ns c word.line, (word :: (ts ++ untilWord :: cs)).length, faults⟩ := by
  rw [List.cons_append, statement_cons (by rw [hw]; rfl), statementFrom]
  simp [hw, repeatStatement_of_derives hs hu hc hr]
  omega

theorem statement_block {word endWord : Token} {ns : List Node}
    (hw : word.kind = .keyword .begin)
    (hs : statements finish (ts ++ endWord :: rest) = ⟨ns, ts.length, faults⟩)
    (he : endWord.kind = .keyword .end) :
    statement finish (word :: (ts ++ [endWord]) ++ rest) =
      ⟨.block ns word.line, (word :: (ts ++ [endWord])).length, faults⟩ := by
  rw [List.cons_append, statement_cons (by rw [hw]; rfl), statementFrom]
  simp [hw, block_of_statements hs he]
  omega

/-- A statement that contains no others is read up to a token that goes on with none. -/
theorem statement_of_isSimple (h : DerivesStatement lenient (.statement n) ts)
    (hs : n.isSimple = true)
    (hr : Level.expression.prolongs (kindAhead rest) = false ∧ kindAhead rest ≠ .leftParen ∧
      kindAhead rest ≠ .leftBracket ∧ kindAhead rest ≠ .assign) :
    statement finish (ts ++ rest) = ⟨n, ts.length, []⟩ := by
  obtain ⟨hp, hparen, hbracket, hassign⟩ := hr
  cases h with
  | @assignment name becomes i v is vs hn hi hb hv =>
    have hstart : startsWith .leftBracket (is ++ becomes :: (vs ++ rest)) = true ∨
        startsWith .assign (is ++ becomes :: (vs ++ rest)) = true := by
      cases hi with
      | none => exact .inr (by simp [startsWith, hb])
      | index ho _ _ => exact .inl (by simp [startsWith, ho])
    rw [List.cons_append, statement_cons (by rw [hn]; rfl), statementFrom]
    simp [hn, hstart, assignment_of_derives hi hb hv hp]
    omega
  | @call name es ts hn hes =>
    have hstart : startsWith .leftBracket (ts ++ rest) = false ∧
        startsWith .assign (ts ++ rest) = false := by
      cases hes with
      | none => simp [startsWith_eq, hbracket, hassign]
      | empty ho _ | list ho _ _ => simp [startsWith, ho]
    rw [List.cons_append, statement_cons (by rw [hn]; rfl), statementFrom]
    simp [hn, hstart, procedureCall_of_derives hes hparen, Nat.add_comm]
  | @write word as ts hw has =>
    rcases hw with hw | hw <;>
    · rw [List.cons_append, statement_cons (by rw [hw]; rfl), statementFrom]
      simp [hw, writeStatement_of_derives has hparen, Nat.add_comm]
  | @read word as ts hw has =>
    rcases hw with hw | hw <;>
    · rw [List.cons_append, statement_cons (by rw [hw]; rfl), statementFrom]
      simp [hw, readStatement_of_derives has hparen, Nat.add_comm]
  | empty | ifThen | ifElse | whileDo | forDo | repeatUntil | block => cases hs

/-! ### The invariant of reading -/

/-- The rule of the reader for the phrase reads it from the tokens, before tokens that end it. -/
def IsReadStatement (finish : EndMark) : StatementPhrase → List Token → Prop
  | .statement n, ts => ∀ rest, n.endsBefore (kindAhead rest) = true →
      statement finish (ts ++ rest) = ⟨n, ts.length, []⟩
  | .statements ns, ts => ∀ rest, closesStatements (kindAhead rest) = true →
      statements finish (ts ++ rest) = ⟨ns, ts.length, []⟩

@[simp] theorem next_kind (tokens : List Token) : (next finish tokens).kind = kindAhead tokens := by
  cases tokens <;> rfl

theorem statements_of_end (h : closesStatements (kindAhead rest) = true) :
    statements finish rest = ⟨[], 0, []⟩ := by
  cases rest with
  | nil => rw [statements]
  | cons t rest => rw [statements]; simp_all

theorem statements_semicolon {separator : Token} (hs : separator.kind = .semicolon)
    (rest : List Token) :
    statements finish (separator :: rest) = (statements finish rest).past 1 := by
  rw [statements]
  simp [hs, closesStatements]

/-- The first statement of a list is read as it is by itself. -/
theorem statements_of_statement (h : DerivesStatement lenient (.statement n) ts)
    (hn : statement finish (ts ++ rest) = ⟨n, ts.length, []⟩)
    (hr : closesStatements (kindAhead rest) = true) :
    statements finish (ts ++ rest) = ⟨n.listed, ts.length, []⟩ := by
  obtain ⟨rfl, rfl⟩ | ⟨ha, t, after, ht, rfl⟩ := h.begins
  · exact statements_of_end hr
  · obtain ⟨hs, hc, -⟩ := ne_of_beginsStatement ht
    have hs' : kindAhead rest ≠ .semicolon := fun hk => by simp [hk, closesStatements] at hr
    rw [List.cons_append, statement_cons ht] at hn
    have hf : statementFrom finish t (after ++ rest) = ⟨n, after.length, []⟩ :=
      Step.eq_of_past_one hn
    rw [List.cons_append, statements]
    simp [hs, hc, hf, separator, startsWith_eq, hs', hr, statements_of_end hr, Node.listed, ha]
    omega

theorem statements_of_semicolon {ns : List Node} {separator : Token} {rs : List Token}
    (h : DerivesStatement lenient (.statement n) ts) (hs : separator.kind = .semicolon)
    (hn : statement finish (ts ++ separator :: (rs ++ rest)) = ⟨n, ts.length, []⟩)
    (hns : statements finish (rs ++ rest) = ⟨ns, rs.length, []⟩) :
    statements finish (ts ++ separator :: (rs ++ rest)) =
      ⟨n.listed ++ ns, ts.length + (1 + rs.length), []⟩ := by
  obtain ⟨rfl, rfl⟩ | ⟨ha, t, after, ht, rfl⟩ := h.begins
  · rw [List.nil_append, statements_semicolon hs, hns]
    simp [Node.listed, Node.isAbsent]
  · obtain ⟨hs', hc, -⟩ := ne_of_beginsStatement ht
    rw [List.cons_append, statement_cons ht] at hn
    have hf : statementFrom finish t (after ++ separator :: (rs ++ rest)) =
        ⟨n, after.length, []⟩ := Step.eq_of_past_one hn
    rw [List.cons_append, statements]
    simp [hs', hc, hf, Grammar.separator, startsWith_eq, hs, hns, Node.listed, ha]
    omega

theorem endsBefore_congr {m : Node} (h : n.isClosed = m.isClosed) (kind : TokenKind) :
    n.endsBefore kind = m.endsBefore kind := by
  rw [Node.endsBefore, Node.endsBefore, h]

/-- The branch in front of an `else` is empty, or it is read up to the `else`. -/
theorem IsReadStatement.beforeElse (h : IsReadStatement finish (.statement n) ts)
    (hn : DerivesStatement lenient (.statement n) ts) (hd : n.isAbsent = true ∨ n.isClosed = true)
    (rest : List Token) (hr : kindAhead rest = .keyword .else) :
    ts = [] ∧ n = .absent ∧ ([] : List GrammarFault) = [] ∨
      kindAhead (ts ++ rest) ≠ .keyword .else ∧
        statement finish (ts ++ rest) = ⟨n, ts.length, []⟩ := by
  obtain ⟨rfl, rfl⟩ | ⟨ha, t, after, ht, rfl⟩ := hn.begins
  · exact .inl ⟨rfl, rfl, rfl⟩
  · refine .inr ⟨(ne_of_beginsStatement ht).2.2, h rest ?_⟩
    -- Only a closed statement ends before `else`, and one that is not empty is closed here.
    have hc : n.isClosed = true := by simpa [ha] using hd
    exact endsBefore_iff.mpr (.inr (.inr ⟨hc, hr⟩))

/-- **Reading follows the grammar of statements.**  The induction is on the derivation; each rule of
the grammar is one unfolding of the reader's rule for the statement. -/
theorem isReadStatement_of_derives {p : StatementPhrase} (h : DerivesStatement lenient p ts) :
    IsReadStatement finish p ts := by
  induction h with
  | empty =>
    intro rest hr
    have hr' : kindAhead rest = .semicolon ∨ closesStatements (kindAhead rest) = true := by
      simpa [endsBefore_iff, Node.isClosed] using hr
    cases rest with
    | nil => rw [List.nil_append, statement]; rfl
    | cons t rest =>
      rw [List.nil_append, statement]
      exact if_pos hr'
  | assignment hn hi hb hv =>
    intro rest hr
    exact @statement_of_isSimple finish lenient _ _ rest (.assignment hn hi hb hv) rfl
      (ne_of_endsBefore hr)
  | call hn hs =>
    intro rest hr
    exact @statement_of_isSimple finish lenient _ _ rest (.call hn hs) rfl (ne_of_endsBefore hr)
  | @ifThen word thenWord c n cs ns hw hc ht hn ih =>
    intro rest hr
    -- It is not closed, so no `else` follows that could be taken for its own.
    have hr' : kindAhead rest = .semicolon ∨ closesStatements (kindAhead rest) = true := by
      simpa [endsBefore_iff, Node.isClosed] using hr
    have hb : kindAhead rest ≠ .keyword .else := by
      intro hk
      simp [hk, closesStatements] at hr'
    have hn' := ih rest (endsBefore_iff.mpr (hr'.imp_right .inl))
    exact statement_ifThen hw hc ht hn' (hn.ne_else fun _ => hb) hb
  | @ifElse word thenWord elseWord c n m cs ns ms hw hc ht hn hd he hm ihn ihm =>
    intro rest hr
    -- What ends the statement ends its last branch.
    have hm' := ihm rest (by rwa [endsBefore_congr (by rfl)] at hr)
    exact statement_ifElse hw hc ht (ihn.beforeElse hn hd (elseWord :: (ms ++ rest)) he) he hm'
  | whileDo hw hc hd hn ih =>
    intro rest hr
    exact statement_whileDo hw hc hd (ih rest (by rwa [endsBefore_congr (by rfl)] at hr))
  | forDo hw hn hb ha hd he hdo hbody ih =>
    intro rest hr
    exact statement_forDo hw hn hb ha hd he hdo
      (ih rest (by rwa [endsBefore_congr (by rfl)] at hr))
  | @repeatUntil word untilWord ns c ts cs hw hn hu hc ih =>
    intro rest hr
    have hs := ih (untilWord :: (cs ++ rest)) (by rw [kindAhead_cons, hu]; rfl)
    exact statement_repeatUntil hw hs hu hc (ne_of_endsBefore hr).1
  | write hw has =>
    intro rest hr
    exact @statement_of_isSimple finish lenient _ _ rest (.write hw has) rfl (ne_of_endsBefore hr)
  | read hw has =>
    intro rest hr
    exact @statement_of_isSimple finish lenient _ _ rest (.read hw has) rfl (ne_of_endsBefore hr)
  | @block word endWord ns ts hw hn he ih =>
    intro rest hr
    exact statement_block hw (ih (endWord :: rest) (by rw [kindAhead_cons, he]; rfl)) he
  | @lastStatement n ts hn ih =>
    intro rest hr
    exact statements_of_statement hn (ih rest (endsBefore_iff.mpr (.inr (.inl hr)))) hr
  | @semicolon n ns separator ts rs hn hs hns ihn ihns =>
    intro rest hr
    have hn' := ihn (separator :: (rs ++ rest)) (endsBefore_iff.mpr (.inl hs))
    simpa [Nat.add_comm] using statements_of_semicolon hn hs hn' (ihns rest hr)

end Grammar
end PascalCheck
