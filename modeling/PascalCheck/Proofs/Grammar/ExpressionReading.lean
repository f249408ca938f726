import PascalCheck.Proofs.Grammar.ExpressionGrammar

/-! Reading follows the grammar: from tokens that the grammar derives, the rules of the reader read
back the expression, use exactly these tokens and find no fault.

A rule with a loop reads a phrase and then goes on with whatever prolongs it, so the invariant of
the induction (`IsRead`) speaks of the loop on the tokens that follow, with the phrase as its
left operand.  It asks of these tokens only that they do not prolong the phrase at a tighter
level. -/
namespace PascalCheck

namespace Grammar

variable {finish : EndMark}

/-! ### Loops end before tokens that do not prolong them -/

theorem products_of_end (l : Expr) {rest : List Token}
    (h : isMultiplying (kindAhead rest) = false) : products finish l rest = ⟨l, 0, []⟩ := by
  cases rest with
  | nil => rw [products]
  | cons t rest => rw [products]; simp_all

theorem sums_of_end (l : Expr) {rest : List Token}
    (h : isAdding (kindAhead rest) = false) : sums finish l rest = ⟨l, 0, []⟩ := by
  cases rest with
  | nil => rw [sums]
  | cons t rest => rw [sums]; simp_all

theorem relations_of_end (l : Expr) {rest : List Token}
    (h : kindAhead rest ≠ .relation) : relations finish l rest = ⟨l, 0, []⟩ := by
  cases rest with
  | nil => rw [relations]
  | cons t rest => rw [relations]; simp_all

/-! ### Tokens that end a phrase -/

namespace Level

theorem prolongs_of_isMultiplying {kind : TokenKind} (h : isMultiplying kind = true) :
    factor.prolongs kind = false := by
  revert h
  rcases kind with _ | _ | _ | _ | w | _ <;> first | decide | (cases w <;> decide)

theorem prolongs_of_isAdding {kind : TokenKind} (h : isAdding kind = true) :
    term.prolongs kind = false := by
  revert h
  rcases kind with _ | _ | _ | _ | w | _ <;> first | decide | (cases w <;> decide)

theorem prolongs_term {kind : TokenKind} (h : term.prolongs kind = false) :
    factor.prolongs kind = false ∧ isMultiplying kind = false := by
  simpa [prolongs] using h

theorem prolongs_simple {kind : TokenKind} (h : simple.prolongs kind = false) :
    term.prolongs kind = false ∧ isAdding kind = false := by
  simpa [prolongs] using h

theorem prolongs_expression {kind : TokenKind} (h : expression.prolongs kind = false) :
    simple.prolongs kind = false ∧ kind ≠ .relation := by
  simpa [prolongs] using h

end Level

/-! ### The invariant of reading -/

/-- The reader's rule for the phrase reads it from the tokens, whatever follows that prolongs it at
no tighter level; the loop of the rule takes over from there. -/
def IsRead (finish : EndMark) : Phrase → List Token → Prop
  | .expr .factor e, ts => ∀ rest, Level.factor.prolongs (kindAhead rest) = false →
      factor finish (ts ++ rest) = ⟨e, ts.length, []⟩
  | .expr .term e, ts => ∀ rest, Level.factor.prolongs (kindAhead rest) = false →
      term finish (ts ++ rest) = (products finish e rest).past ts.length
  | .expr .simple e, ts => ∀ rest, Level.term.prolongs (kindAhead rest) = false →
      simple finish (ts ++ rest) = (sums finish e rest).past ts.length
  | .expr .expression e, ts => ∀ rest, Level.simple.prolongs (kindAhead rest) = false →
      expression finish (ts ++ rest) = (relations finish e rest).past ts.length
  | .arguments es, ts => ∀ rest, kindAhead rest = .rightParen →
      arguments finish (ts ++ rest) = ⟨es, ts.length, []⟩

variable {e : Expr} {ts rest : List Token}

/-- A term is read by itself before tokens that do not prolong terms. -/
theorem IsRead.term (h : IsRead finish (.expr .term e) ts)
    (hr : Level.term.prolongs (kindAhead rest) = false) :
    Grammar.term finish (ts ++ rest) = ⟨e, ts.length, []⟩ := by
  obtain ⟨hf, hm⟩ := Level.prolongs_term hr
  rw [h rest hf, products_of_end e hm]
  rfl

/-- A simple expression is read by itself before tokens that do not prolong it. -/
theorem IsRead.simple (h : IsRead finish (.expr .simple e) ts)
    (hr : Level.simple.prolongs (kindAhead rest) = false) :
    Grammar.simple finish (ts ++ rest) = ⟨e, ts.length, []⟩ := by
  obtain ⟨ht, ha⟩ := Level.prolongs_simple hr
  rw [h rest ht, sums_of_end e ha]
  rfl

/-- An expression is read by itself before tokens that do not prolong it. -/
theorem IsRead.expression (h : IsRead finish (.expr .expression e) ts) (rest : List Token)
    (hr : Level.expression.prolongs (kindAhead rest) = false) :
    Grammar.expression finish (ts ++ rest) = ⟨e, ts.length, []⟩ := by
  obtain ⟨hs, hn⟩ := Level.prolongs_expression hr
  rw [h rest hs, relations_of_end e hn]
  rfl

/-! ### Each rule of the grammar is read -/

theorem factor_call {name opening closing : Token} {es : List Expr}
    (hn : name.kind = .identifier) (ho : opening.kind = .leftParen)
    (hc : closing.kind = .rightParen)
    (hs : arguments finish (ts ++ closing :: rest) = ⟨es, ts.length, []⟩) :
    factor finish (name :: opening :: (ts ++ closing :: rest)) =
      ⟨.call name.text es name.line, ts.length + 3, []⟩ := by
  rw [factor]
  simp [hn, startsWith, ho, hs, expect_cons hc]
  omega

theorem factor_element {name opening closing : Token} {i : Expr}
    (hn : name.kind = .identifier) (ho : opening.kind = .leftBracket)
    (hc : closing.kind = .rightBracket)
    (hi : expression finish (ts ++ closing :: rest) = ⟨i, ts.length, []⟩) :
    factor finish (name :: opening :: (ts ++ closing :: rest)) =
      ⟨.element name.text i name.line, ts.length + 3, []⟩ := by
  rw [factor]
  simp [hn, startsWith, ho, hi, expect_cons hc]
  omega

theorem factor_parentheses {opening closing : Token} (ho : opening.kind = .leftParen)
    (hc : closing.kind = .rightParen)
    (he : expression finish (ts ++ closing :: rest) = ⟨e, ts.length, []⟩) :
    factor finish (opening :: (ts ++ closing :: rest)) = ⟨e, ts.length + 2, []⟩ := by
  rw [factor]
  simp [ho, he, expect_cons hc]
  omega

theorem products_cons {op : Token} {l r : Expr} (ho : isMultiplying op.kind = true)
    (hr : factor finish (ts ++ rest) = ⟨r, ts.length, []⟩) :
    products finish l (op :: (ts ++ rest)) =
      (products finish (.binary op.text l r op.line) rest).past (1 + ts.length) := by
  rw [products]
  simp [ho, hr]

theorem sums_cons {op : Token} {l r : Expr} (ho : isAdding op.kind = true)
    (hr : term finish (ts ++ rest) = ⟨r, ts.length, []⟩) :
    sums finish l (op :: (ts ++ rest)) =
      (sums finish (.binary op.text l r op.line) rest).past (1 + ts.length) := by
  rw [sums]
  simp [ho, hr]

theorem relations_cons {op : Token} {l r : Expr} (ho : op.kind = .relation)
    (hr : simple finish (ts ++ rest) = ⟨r, ts.length, []⟩) :
    relations finish l (op :: (ts ++ rest)) =
      (relations finish (.binary op.text l r op.line) rest).past (1 + ts.length) := by
  rw [relations]
  simp [ho, hr]

theorem moreArguments_of_end (h : kindAhead rest ≠ .comma) :
    moreArguments finish rest = ⟨[], 0, []⟩ := by
  cases rest with
  | nil => rw [moreArguments]
  | cons t rest => rw [moreArguments]; simp_all

theorem arguments_of_expression {es : List Expr} {n : Nat}
    (hb : kindAhead (ts ++ rest) ≠ .rightParen)
    (he : expression finish (ts ++ rest) = ⟨e, ts.length, []⟩)
    (hs : moreArguments finish rest = ⟨es, n, []⟩) :
    arguments finish (ts ++ rest) = ⟨e :: es, ts.length + n, []⟩ := by
  rw [arguments]
  simp [startsWith_eq, hb, he, hs]

/-- The arguments after a comma are read as those after the parenthesis are. -/
theorem moreArguments_cons {comma : Token} {es : List Expr} (hc : comma.kind = .comma)
    (hb : kindAhead (ts ++ rest) ≠ .rightParen)
    (hs : arguments finish (ts ++ rest) = ⟨es, ts.length, []⟩) :
    moreArguments finish (comma :: (ts ++ rest)) = ⟨es, 1 + ts.length, []⟩ := by
  rw [arguments] at hs
  rw [moreArguments]
  simp only [startsWith_eq, hb, decide_false, Bool.false_eq_true, if_false] at hs
  simp only [hc, if_true, hs, Step.mk_past]

/-- No phrase begins with a closing parenthesis. -/
theorem Derives.ne_rightParen {p : Phrase} (h : Derives p ts) (rest : List Token) :
    kindAhead (ts ++ rest) ≠ .rightParen := by
  intro hk
  have hb := h.begins rest
  rw [hk] at hb
  revert hb
  cases p.level <;> decide

/-- No sign is read in front of a factor. -/
theorem sign?_of_beginsFactor {tokens : List Token}
    (h : beginsFactor (kindAhead tokens) = true) : sign? tokens = none := by
  cases tokens with
  | nil => rfl
  | cons t rest =>
    have hp : t.kind ≠ .plus := fun hk => by simp [hk, beginsFactor] at h
    have hm : t.kind ≠ .minus := fun hk => by simp [hk, beginsFactor] at h
    simp [sign?, hp, hm]

/-- **Reading follows the grammar of expressions.**  The induction is on the derivation; each rule
of the grammar is one unfolding of the reader's rule for the phrase. -/
theorem isRead_of_derives {p : Phrase} (h : Derives p ts) : IsRead finish p ts := by
  induction h with
  | integer ht | real ht | string ht =>
    intro rest _
    rw [List.singleton_append, factor]
    simp [ht]
  | truth ht =>
    intro rest _
    rw [List.singleton_append, factor]
    rcases ht with ht | ht <;> simp [ht]
  | name ht =>
    intro rest hr
    have hp : kindAhead rest ≠ .leftParen := fun hk => by simp [hk, Level.prolongs, isOpening] at hr
    have hb : kindAhead rest ≠ .leftBracket := fun hk => by
      simp [hk, Level.prolongs, isOpening] at hr
    rw [List.singleton_append, factor]
    simp [ht, startsWith_eq, hp, hb]
  | @emptyCall name opening closing hn ho hc =>
    intro rest _
    have hs : arguments finish ([] ++ closing :: rest) = ⟨[], ([] : List Token).length, []⟩ := by
      rw [arguments]; simp [startsWith, hc]
    exact factor_call hn ho hc hs
  | @call name opening closing es ts hn ho _ hc ih =>
    intro rest _
    have hs := ih (closing :: rest) hc
    simpa using factor_call hn ho hc hs
  | @element name opening closing i ts hn ho _ hc ih =>
    intro rest _
    have hi := ih.expression (closing :: rest) (by rw [kindAhead_cons, hc]; rfl)
    simpa using factor_element hn ho hc hi
  | @negation word e ts hw _ ih =>
    intro rest hr
    rw [List.cons_append, factor]
    simp [hw, ih rest hr, Nat.add_comm]
  | @parentheses opening closing e ts ho _ hc ih =>
    intro rest _
    have he := ih.expression (closing :: rest) (by rw [kindAhead_cons, hc]; rfl)
    simpa using factor_parentheses ho hc he
  | term _ ih =>
    intro rest hr
    rw [Grammar.term]
    simp [ih rest hr]
  | @product op l r ls rs _ ho _ ihl ihr =>
    intro rest hr
    -- The loop takes over at the operator, with the left operand behind it.
    have hl := ihl (op :: (rs ++ rest)) (Level.prolongs_of_isMultiplying ho)
    simpa [hl, Nat.add_assoc, Nat.add_comm] using
      congrArg (Step.past ls.length) (products_cons (l := l) ho (ihr rest hr))
  | @simple e ts he ih =>
    intro rest hr
    rw [Grammar.simple]
    simp [sign?_of_beginsFactor (he.begins rest), signed, ih.term hr]
  | plus hs _ ih =>
    intro rest hr
    rw [List.cons_append, Grammar.simple]
    simp [sign?, hs, ih.term hr, signed, Nat.add_comm]
  | minus hs _ ih =>
    intro rest hr
    rw [List.cons_append, Grammar.simple]
    simp [sign?, hs, ih.term hr, signed, Nat.add_comm]
  | @sum op l r ls rs _ ho _ ihl ihr =>
    intro rest hr
    have hl := ihl (op :: (rs ++ rest)) (Level.prolongs_of_isAdding ho)
    simpa [hl, Nat.add_assoc, Nat.add_comm] using
      congrArg (Step.past ls.length) (sums_cons (l := l) ho (ihr.term hr))
  | expression _ ih =>
    intro rest hr
    rw [Grammar.expression]
    simp [ih.simple hr]
  | @relation op l r ls rs _ ho _ ihl ihr =>
    intro rest hr
    have hl := ihl (op :: (rs ++ rest)) (by rw [kindAhead_cons, ho]; rfl)
    simpa [hl, Nat.add_assoc, Nat.add_comm] using
      congrArg (Step.past ls.length) (relations_cons (l := l) ho (ihr.simple hr))
  | @lastArgument e ts he ih =>
    intro rest hr
    have he' := ih.expression (rest) (by rw [hr]; rfl)
    exact arguments_of_expression (he.ne_rightParen rest) he'
      (moreArguments_of_end (by rw [hr]; decide))
  | @argument comma e es ts rs he hc hs ihe ihs =>
    intro rest hr
    -- The other arguments are read as if they stood behind the parenthesis.
    have he' := ihe.expression (comma :: (rs ++ rest)) (by rw [kindAhead_cons, hc]; rfl)
    have hs' := moreArguments_cons hc (hs.ne_rightParen rest) (ihs rest hr)
    simpa [Nat.add_comm] using arguments_of_expression (he.ne_rightParen _) he' hs'

/-- An expression is read by itself before tokens that do not prolong it. -/
theorem expression_of_derives (h : Derives (.expr .expression e) ts) (rest : List Token)
    (hr : Level.expression.prolongs (kindAhead rest) = false) :
    expression finish (ts ++ rest) = ⟨e, ts.length, []⟩ :=
  (isRead_of_derives h).expression rest hr

/-- Arguments are read up to the closing parenthesis. -/
theorem arguments_of_derives {es : List Expr} (h : Derives (.arguments es) ts)
    (rest : List Token) (hr : kindAhead rest = .rightParen) :
    arguments finish (ts ++ rest) = ⟨es, ts.length, []⟩ :=
  isRead_of_derives h rest hr

end Grammar
end PascalCheck
