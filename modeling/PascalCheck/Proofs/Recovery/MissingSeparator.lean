import PascalCheck.Proofs.Printing.RoundTrip
import PascalCheck.Proofs.Printing.Separators

/-! # Missing separators

A separator that is missing between two statements is one fault, at the first token of the second
statement, and costs nothing else: the reader goes on with the second statement as if the separator
were there.  That needs the first statement to end by itself, which it does before every token that
begins a statement, unless it ends in an empty statement, which the second one would take the place
of (`Node.isFull`). -/
namespace PascalCheck
namespace Grammar

variable {finish : EndMark} {n : Node} {ts rest gaps : List Token}

/-- The faults of missing separators. -/
def missingSeparators (gaps : List Token) : List GrammarFault :=
  gaps.map fun t => ⟨.separator, t⟩

theorem missingSeparators_append (gaps gaps' : List Token) :
    missingSeparators (gaps ++ gaps') = missingSeparators gaps ++ missingSeparators gaps' :=
  List.map_append

/-- The tokens that begin statements go on with none: they prolong no expression, and make neither
an assignment nor a call with arguments out of a name. -/
theorem leaves_of_beginsStatement {kind : TokenKind} (h : beginsStatement kind = true) :
    Level.expression.prolongs kind = false ∧ kind ≠ .leftParen ∧ kind ≠ .leftBracket ∧
      kind ≠ .assign := by
  revert h
  rcases kind with _ | _ | _ | _ | w | _ <;> first | decide | (cases w <;> decide)

/-- The token ends the statement, or begins the next one behind a gap. -/
def isBehind (n : Node) (kind : TokenKind) : Bool :=
  n.endsBefore kind || beginsStatement kind

theorem leaves_of_isBehind {kind : TokenKind} (h : isBehind n kind = true) :
    Level.expression.prolongs kind = false ∧ kind ≠ .leftParen ∧ kind ≠ .leftBracket ∧
      kind ≠ .assign := by
  rcases Bool.or_eq_true_iff.mp h with h | h
  · exact ne_of_endsBefore h
  · exact leaves_of_beginsStatement h

theorem isBehind_congr {m : Node} (h : n.isClosed = m.isClosed) (kind : TokenKind) :
    isBehind n kind = isBehind m kind := by
  rw [isBehind, isBehind, endsBefore_congr h]

/-! ## The invariant of reading -/

/-- Tokens that write the statement with separators left out are read as the statement, lines aside,
and each separator that is left out is a fault. -/
def IsReadAcross (finish : EndMark) (n : Node) : Prop :=
  ∀ ts gaps, LeavesOut n.printed ts gaps → ∃ n' : Node, n'.unplaced = n.unplaced ∧
    (∃ t after, ts = t :: after ∧ beginsStatement t.kind = true) ∧
    ∀ rest, isBehind n (kindAhead rest) = true →
      statement finish (ts ++ rest) = ⟨n', ts.length, missingSeparators gaps⟩

/-- The same of a list of statements. -/
def AreReadAcross (finish : EndMark) (ps : List Printed) (ns : List Node) : Prop :=
  ∀ ts gaps, LeavesOut ps ts gaps → ∃ ns' : List Node,
    ns'.map Node.unplaced = ns.map Node.unplaced ∧
    ∀ rest, closesStatements (kindAhead rest) = true →
      statements finish (ts ++ rest) = ⟨ns', ts.length, missingSeparators gaps⟩

/-- What the reader does behind a statement of a list. -/
def behindStatement (finish : EndMark) (tokens : List Token) : Step (List Node) :=
  let separator := separator finish tokens
  separator.andThen (statements finish (tokens.drop separator.used))

/-- The same of the statements of a list that follow the first one, with their separators. -/
def FollowAcross (finish : EndMark) (ps : List Printed) (ns : List Node) : Prop :=
  ∀ ts gaps, LeavesOut ps ts gaps → ∃ ns' : List Node,
    ns'.map Node.unplaced = ns.map Node.unplaced ∧
    ∀ rest, closesStatements (kindAhead rest) = true →
      (∀ n : Node, isBehind n (kindAhead (ts ++ rest)) = true) ∧
      behindStatement finish (ts ++ rest) = ⟨ns', ts.length, missingSeparators gaps⟩

/-! ## Lists of statements -/

theorem isBehind_of_closes {kind : TokenKind} (h : closesStatements kind = true) (n : Node) :
    isBehind n kind = true := by
  simp [isBehind, Node.endsBefore, h]

/-- A statement of a list, and what stands behind it. -/
theorem statements_cons {t : Token} {after behind : List Token} {ns : List Node} {count : Nat}
    {faults faults' : List GrammarFault} (ht : beginsStatement t.kind = true)
    (ha : n.isAbsent = false)
    (hn : statement finish (t :: after ++ behind) = ⟨n, (t :: after).length, faults⟩)
    (hns : behindStatement finish behind = ⟨ns, count, faults'⟩) :
    statements finish (t :: after ++ behind) =
      ⟨n :: ns, (t :: after).length + count, faults ++ faults'⟩ := by
  obtain ⟨hs, hc, -⟩ := ne_of_beginsStatement ht
  rw [List.cons_append, statement_cons ht, List.length_cons] at hn
  have hf : statementFrom finish t (after ++ behind) = ⟨n, after.length, faults⟩ :=
    Step.eq_of_past_one hn
  rw [List.cons_append, statements]
  have hvalue := congrArg Step.value hns
  have hused := congrArg Step.used hns
  have hfaults := congrArg Step.faults hns
  simp only [behindStatement, Step.andThen_value, Step.andThen_used, Step.andThen_faults]
    at hvalue hused hfaults
  simp [hs, hc, hf, ha, Step.past, Step.as, Step.andThen, ← List.drop_drop, hvalue, ← hfaults]
  omega

theorem followAcross_nil : FollowAcross finish [] [] := by
  intro ts gaps hts
  cases hts
  refine ⟨[], rfl, fun rest hr => ⟨isBehind_of_closes hr, ?_⟩⟩
  have hs : separator finish rest = ⟨(), 0, []⟩ := by
    have hsemicolon : kindAhead rest ≠ .semicolon := by
      intro hk
      rw [hk] at hr
      cases hr
    simp [separator, startsWith_eq, hsemicolon, hr]
  rw [List.nil_append, behindStatement, hs]
  simp [statements_of_end hr, missingSeparators]

/-- The first statement of a list ends before what stands behind it. -/
theorem areReadAcross_cons {ps : List Printed} {ns : List Node} (ha : n.isAbsent = false)
    (hn : IsReadAcross finish n) (hns : FollowAcross finish ps ns) :
    AreReadAcross finish (n.printed ++ ps) (n :: ns) := by
  intro ts gaps hts
  obtain ⟨ts₁, ts₂, gaps₁, gaps₂, rfl, rfl, h₁, h₂⟩ := hts.append_inv
  obtain ⟨n', hun, ⟨t, after, rfl, ht⟩, hread⟩ := hn ts₁ gaps₁ h₁
  obtain ⟨ns', huns, hfollow⟩ := hns ts₂ gaps₂ h₂
  refine ⟨n' :: ns', by rw [List.map_cons, List.map_cons, hun, huns], fun rest hr => ?_⟩
  obtain ⟨hbehind, hreads⟩ := hfollow rest hr
  have ha' : n'.isAbsent = false := by
    rw [← Node.isAbsent_unplaced, hun, Node.isAbsent_unplaced, ha]
  have hall := statements_cons ht ha' (hread (ts₂ ++ rest) (hbehind n)) hreads
  rw [List.append_assoc, hall, List.length_append, missingSeparators_append]

/-- The other statements of a list stand behind separators that are there or left out. -/
theorem followAcross_cons {ps : List Printed} {ns : List Node} (ha : n.isAbsent = false)
    (hw : n.isWellFormed = true) (hn : IsReadAcross finish n) (hns : FollowAcross finish ps ns) :
    FollowAcross finish (Printed.behind n.printed ++ ps) (n :: ns) := by
  obtain ⟨l, qs, hprinted⟩ := Node.printed_eq_cons hw ha
  have hread := areReadAcross_cons ha hn hns
  rw [hprinted] at hread ⊢
  intro ts gaps hts
  rcases hts.behind_inv with ⟨semicolon, us, hs, rfl, hus⟩ | ⟨t, us, others, rfl, rfl, hus⟩
  · obtain ⟨ns', huns, hreads⟩ := hread us gaps hus
    refine ⟨ns', huns, fun rest hr => ⟨fun m => ?_, ?_⟩⟩
    · simp [isBehind, Node.endsBefore, hs]
    · have hseparator : separator finish (semicolon :: us ++ rest) = ⟨(), 1, []⟩ := by
        simp [separator, startsWith, hs]
      rw [behindStatement, hseparator]
      simp [hreads rest hr, Nat.add_comm]
  · obtain ⟨ns', huns, hreads⟩ := hread (t :: us) others hus
    refine ⟨ns', huns, fun rest hr => ?_⟩
    -- What is read behind the gap begins with a token that begins a statement.
    have ht : beginsStatement t.kind = true := by
      have hfirst : LeavesOut (n.printed ++ ps) (t :: us) others := by
        rw [hprinted]
        exact hus
      obtain ⟨ts₁, ts₂, gaps₁, gaps₂, hts, -, h₁, -⟩ := hfirst.append_inv
      obtain ⟨-, -, ⟨u, after, rfl, hu⟩, -⟩ := hn ts₁ gaps₁ h₁
      obtain rfl := (List.cons.inj hts).1
      exact hu
    obtain ⟨hs, hc, -⟩ := ne_of_beginsStatement ht
    refine ⟨fun m => by simp [isBehind, ht], ?_⟩
    have hseparator : separator finish (t :: us ++ rest) = ⟨(), 0, [⟨.separator, t⟩]⟩ := by
      simp [separator, startsWith, hs, hc, refuse, next]
    rw [behindStatement, hseparator]
    simp only [List.drop_zero, hreads rest hr]
    rw [Step.mk_andThen_mk, Nat.zero_add]
    rfl

/-- **A list of statements is read across its gaps if its statements are.** -/
theorem areReadAcross_listed {ns : List Node}
    (h : ∀ n ∈ ns, n.isAbsent = false ∧ n.isWellFormed = true ∧ IsReadAcross finish n) :
    AreReadAcross finish (Printed.listed (Node.printedEach ns)) ns := by
  have hfollow : ∀ rest : List Node,
      (∀ n ∈ rest, n.isAbsent = false ∧ n.isWellFormed = true ∧ IsReadAcross finish n) →
        FollowAcross finish ((Node.printedEach rest).flatMap Printed.behind) rest := by
    intro rest
    induction rest with
    | nil => exact fun _ => followAcross_nil
    | cons n rest ih =>
      intro hrest
      obtain ⟨ha, hw, hn⟩ := hrest n List.mem_cons_self
      exact followAcross_cons ha hw hn (ih fun m hm => hrest m (List.mem_cons_of_mem _ hm))
  cases ns with
  | nil =>
    intro ts gaps hts
    cases hts
    exact ⟨[], rfl, fun rest hr => statements_of_end hr⟩
  | cons n rest =>
    obtain ⟨ha, -, hn⟩ := h n List.mem_cons_self
    exact areReadAcross_cons ha hn (hfollow rest fun m hm => h m (List.mem_cons_of_mem _ hm))

/-! ## Statements -/

section
variable {condition : Expr} {body thenBranch elseBranch : Node} {statements : List Node}

theorem isSimple_unplaced (n : Node) : n.unplaced.isSimple = n.isSimple := by
  cases n with
  | expression e => cases e <;> rfl
  | _ => rfl

/-- A statement that contains no others has no separators. -/
theorem isReadAcross_of_isSimple (hw : n.isWellFormed = true) (hs : n.isSimple = true) :
    IsReadAcross finish n := by
  have hprinted : n.printed = Printed.plain n.print := by cases n <;> first | rfl | cases hs
  have ha : n.isAbsent = false := by
    cases n with
    | expression e => cases hs
    | _ => rfl
  intro ts gaps hts
  rw [hprinted] at hts
  obtain ⟨hlexemes, rfl⟩ := hts.plain_inv
  obtain ⟨n', hun, hd⟩ := n.isWritten_print hw ts hlexemes
  have hs' : n'.isSimple = true := by rw [← isSimple_unplaced, hun, isSimple_unplaced, hs]
  have ha' : n'.isAbsent = false := by
    rw [← Node.isAbsent_unplaced, hun, Node.isAbsent_unplaced, ha]
  refine ⟨n', hun, ?_, fun rest hr => statement_of_isSimple hd hs' (leaves_of_isBehind hr)⟩
  obtain ⟨rfl, -⟩ | ⟨-, t, after, ht, rfl⟩ := hd.begins
  · cases ha'
  · exact ⟨t, after, rfl, ht⟩

/-- Tokens that write a condition between two words. -/
theorem exists_of_condition {first second : TokenKind} (hc : condition.isWellFormed = true)
    (hts : LeavesOut (Printed.plain (.mark first :: (condition.print ++ [.mark second]))) ts gaps) :
    gaps = [] ∧ ∃ word cs last c, ts = word :: (cs ++ [last]) ∧ word.kind = first ∧
      last.kind = second ∧ c.unplaced = condition.unplaced ∧ Derives (.expr .expression c) cs := by
  obtain ⟨hlexemes, rfl⟩ := hts.plain_inv
  obtain ⟨word, cs, last, rfl, hw, hcs, hl⟩ := exists_of_between hlexemes
  obtain ⟨c, huc, hdc⟩ := (condition.isWritten_print hc).expression cs hcs
  exact ⟨rfl, word, cs, last, c, rfl, hw, hl, huc, hdc⟩

theorem isReadAcross_whileDo (line : Int) (hc : condition.isWellFormed = true)
    (hb : IsReadAcross finish body) : IsReadAcross finish (.whileDo condition body line) := by
  intro ts gaps hts
  obtain ⟨ts₁, us, gaps₁, gaps₂, rfl, rfl, h₁, h₂⟩ := LeavesOut.append_inv hts
  obtain ⟨rfl, word, cs, doWord, c, rfl, hw, hd, huc, hdc⟩ := exists_of_condition hc h₁
  obtain ⟨n, hun, -, hread⟩ := hb us gaps₂ h₂
  refine ⟨.whileDo c n word.line, by simp [Node.unplaced, huc, hun],
    ⟨word, _, rfl, by rw [hw]; rfl⟩, fun rest hr => ?_⟩
  have hn := hread rest (by rwa [isBehind_congr (by rfl)] at hr)
  simpa using statement_whileDo hw hdc hd hn

theorem isReadAcross_forDo (counter : String) {start stop : Expr} (downward : Bool) (line : Int)
    (hs : start.isWellFormed = true) (hf : stop.isWellFormed = true)
    (hb : IsReadAcross finish body) :
    IsReadAcross finish (.forDo counter start stop downward body line) := by
  intro ts gaps hts
  obtain ⟨hs₁, us, gaps₁, gaps₂, rfl, rfl, h₁, h₂⟩ := LeavesOut.append_inv hts
  obtain ⟨hlexemes, rfl⟩ := h₁.plain_inv
  obtain ⟨word, ts₁, rfl, hw, hts₁⟩ := List.map_eq_cons_iff.mp hlexemes
  obtain ⟨name, ts₂, rfl, hn, hts₂⟩ := List.map_eq_cons_iff.mp hts₁
  obtain ⟨hk, rfl⟩ := Token.of_name hn
  obtain ⟨becomes, ts₃, rfl, hbecomes, hts₃⟩ := List.map_eq_cons_iff.mp hts₂
  obtain ⟨as, ts₄, rfl, has, hts₄⟩ := List.map_eq_append_iff.mp hts₃
  obtain ⟨direction, ts₅, rfl, hdirection, hts₅⟩ := List.map_eq_cons_iff.mp hts₄
  obtain ⟨bs, ts₆, rfl, hbs, hts₆⟩ := List.map_eq_append_iff.mp hts₅
  obtain ⟨doWord, empty, rfl, hdo, hempty⟩ := List.map_eq_cons_iff.mp hts₆
  obtain rfl := List.map_eq_nil_iff.mp hempty
  obtain ⟨a, hua, hda⟩ := (start.isWritten_print hs).expression as has
  obtain ⟨b, hub, hdb⟩ := (stop.isWritten_print hf).expression bs hbs
  obtain ⟨n, hun, -, hread⟩ := hb us gaps₂ h₂
  refine ⟨.forDo name.text a b downward n word.line, by simp [Node.unplaced, hua, hub, hun],
    ⟨word, _, rfl, by rw [Token.kind_of_mark hw]; rfl⟩, fun rest hr => ?_⟩
  have hn := hread rest (by rwa [isBehind_congr (by rfl)] at hr)
  have hbound : DerivesBound false b bs := .bound hdb
  simpa using statement_forDo (Token.kind_of_mark hw) hk (Token.kind_of_mark hbecomes) hda
    (Token.kind_of_mark hdirection) hbound (Token.kind_of_mark hdo) hn

theorem isReadAcross_ifThen (line : Int) (hc : condition.isWellFormed = true)
    (hn : IsReadAcross finish thenBranch) :
    IsReadAcross finish (.ifThen condition thenBranch .absent line) := by
  intro ts gaps hts
  obtain ⟨ts₁, us, gaps₁, gaps₂, rfl, rfl, h₁, h₂⟩ := LeavesOut.append_inv hts
  obtain ⟨rfl, word, cs, thenWord, c, rfl, hw, ht, huc, hdc⟩ := exists_of_condition hc h₁
  rw [if_pos (by rfl), List.append_nil] at h₂
  obtain ⟨n, hun, ⟨t, after, rfl, hbegins⟩, hread⟩ := hn us gaps₂ h₂
  refine ⟨.ifThen c n .absent word.line, by simp [Node.unplaced, huc, hun],
    ⟨word, _, rfl, by rw [hw]; rfl⟩, fun rest hr => ?_⟩
  -- It is not closed, so no `else` follows that could be taken for its own.
  have helse : kindAhead rest ≠ .keyword .else := by
    intro hk
    rw [hk] at hr
    simp [isBehind, Node.endsBefore, Node.isClosed, closesStatements, beginsStatement] at hr
  have hbehind : isBehind thenBranch (kindAhead rest) = true := by
    have hne : decide (kindAhead rest = .keyword .else) = false := decide_eq_false helse
    simpa [isBehind, Node.endsBefore, hne] using hr
  simpa using statement_ifThen hw hdc ht (hread rest hbehind) (ne_of_beginsStatement hbegins).2.2
    helse

/-- A branch in front of an `else` is empty, or it is closed and read up to the `else`. -/
theorem isReadAcross_ifElse (line : Int) (hc : condition.isWellFormed = true)
    (hn : thenBranch = .absent ∨ thenBranch.isClosed = true ∧ IsReadAcross finish thenBranch)
    (he : elseBranch.isAbsent = false) (hm : IsReadAcross finish elseBranch) :
    IsReadAcross finish (.ifThen condition thenBranch elseBranch line) := by
  intro ts gaps hts
  obtain ⟨ts₁, us, gaps₁, gaps₂, rfl, rfl, h₁, h₂⟩ := LeavesOut.append_inv hts
  obtain ⟨rfl, word, cs, thenWord, c, rfl, hw, ht, huc, hdc⟩ := exists_of_condition hc h₁
  rw [he, if_neg (by simp)] at h₂
  obtain ⟨ns, vs, gaps₃, gaps₄, rfl, rfl, h₃, h₄⟩ := h₂.append_inv
  obtain ⟨es, ms, gaps₅, gaps₆, rfl, rfl, h₅, h₆⟩ := h₄.append_inv
  obtain ⟨hes, rfl⟩ := h₅.plain_inv
  obtain ⟨elseWord, empty, rfl, hw', hempty⟩ := List.map_eq_cons_iff.mp hes
  obtain rfl := List.map_eq_nil_iff.mp hempty
  obtain ⟨m, hum, -, hreadElse⟩ := hm ms gaps₆ h₆
  have hkind : elseWord.kind = .keyword .else := Token.kind_of_mark hw'
  obtain ⟨n, hun, hreadThen⟩ : ∃ n : Node, n.unplaced = thenBranch.unplaced ∧ ∀ rest,
      ns = [] ∧ n = .absent ∧ missingSeparators gaps₃ = [] ∨
        kindAhead (ns ++ elseWord :: (ms ++ rest)) ≠ .keyword .else ∧
          statement finish (ns ++ elseWord :: (ms ++ rest)) =
            ⟨n, ns.length, missingSeparators gaps₃⟩ := by
    rcases hn with rfl | ⟨hclosed, hn⟩
    · obtain ⟨hns, rfl⟩ := LeavesOut.plain_inv h₃
      exact ⟨.absent, rfl, fun _ => .inl ⟨List.map_eq_nil_iff.mp hns, rfl, rfl⟩⟩
    · obtain ⟨n, hun, ⟨t, after, rfl, hbegins⟩, hread⟩ := hn ns gaps₃ h₃
      refine ⟨n, hun, fun rest => .inr ⟨(ne_of_beginsStatement hbegins).2.2, hread _ ?_⟩⟩
      simp [isBehind, Node.endsBefore, hclosed, hkind]
  refine ⟨.ifThen c n m word.line, by simp [Node.unplaced, huc, hun, hum],
    ⟨word, _, rfl, by rw [hw]; rfl⟩, fun rest hr => ?_⟩
  have hlast := hreadElse rest (by rwa [isBehind_congr (by rfl)] at hr)
  simpa [missingSeparators_append] using
    statement_ifElse hw hdc ht (hreadThen rest) hkind hlast

theorem isReadAcross_repeatUntil (line : Int) (hc : condition.isWellFormed = true)
    (hs : AreReadAcross finish (Printed.listed (Node.printedEach statements)) statements) :
    IsReadAcross finish (.repeatUntil statements condition line) := by
  intro ts gaps hts
  obtain ⟨ws, us, gaps₁, gaps₂, rfl, rfl, h₁, h₂⟩ := LeavesOut.append_inv hts
  obtain ⟨hws, rfl⟩ := h₁.plain_inv
  obtain ⟨word, empty, rfl, hw, hempty⟩ := List.map_eq_cons_iff.mp hws
  obtain rfl := List.map_eq_nil_iff.mp hempty
  obtain ⟨ss, vs, gaps₃, gaps₄, rfl, rfl, h₃, h₄⟩ := h₂.append_inv
  obtain ⟨hvs, rfl⟩ := h₄.plain_inv
  obtain ⟨untilWord, cs, rfl, hu, hcs⟩ := List.map_eq_cons_iff.mp hvs
  obtain ⟨c, huc, hdc⟩ := (condition.isWritten_print hc).expression cs hcs
  obtain ⟨ns, huns, hread⟩ := hs ss gaps₃ h₃
  refine ⟨.repeatUntil ns c word.line,
    by simp [Node.unplaced, Node.allUnplaced_eq_map, huns, huc],
    ⟨word, _, rfl, by rw [Token.kind_of_mark hw]; rfl⟩, fun rest hr => ?_⟩
  have hns := hread (untilWord :: (cs ++ rest))
    (by rw [kindAhead_cons, Token.kind_of_mark hu]; rfl)
  simpa using statement_repeatUntil (Token.kind_of_mark hw) hns (Token.kind_of_mark hu) hdc
    (leaves_of_isBehind hr).1

/-- The tokens of a list of statements between `begin` and `end`. -/
theorem exists_of_block
    (hs : AreReadAcross finish (Printed.listed (Node.printedEach statements)) statements)
    (hts : LeavesOut (Printed.plain [.mark (.keyword .begin)] ++
      (Printed.listed (Node.printedEach statements) ++ Printed.plain [.mark (.keyword .end)]))
      ts gaps) :
    ∃ word us endWord ns, ts = word :: (us ++ [endWord]) ∧ word.kind = .keyword .begin ∧
      endWord.kind = .keyword .end ∧ ns.map Node.unplaced = statements.map Node.unplaced ∧
      ∀ rest, Grammar.statements finish (us ++ endWord :: rest) =
        ⟨ns, us.length, missingSeparators gaps⟩ := by
  obtain ⟨ws, us, gaps₁, gaps₂, rfl, rfl, h₁, h₂⟩ := LeavesOut.append_inv hts
  obtain ⟨hws, rfl⟩ := h₁.plain_inv
  obtain ⟨word, empty, rfl, hw, hempty⟩ := List.map_eq_cons_iff.mp hws
  obtain rfl := List.map_eq_nil_iff.mp hempty
  obtain ⟨ss, es, gaps₃, gaps₄, rfl, rfl, h₃, h₄⟩ := h₂.append_inv
  obtain ⟨hes, rfl⟩ := h₄.plain_inv
  obtain ⟨endWord, empty, rfl, he, hempty⟩ := List.map_eq_cons_iff.mp hes
  obtain rfl := List.map_eq_nil_iff.mp hempty
  obtain ⟨ns, huns, hread⟩ := hs ss gaps₃ h₃
  refine ⟨word, ss, endWord, ns, rfl, Token.kind_of_mark hw, Token.kind_of_mark he, huns,
    fun rest => ?_⟩
  rw [List.nil_append, List.append_nil]
  exact hread _ (by rw [kindAhead_cons, Token.kind_of_mark he]; rfl)

theorem isReadAcross_block (line : Int)
    (hs : AreReadAcross finish (Printed.listed (Node.printedEach statements)) statements) :
    IsReadAcross finish (.block statements line) := by
  intro ts gaps hts
  obtain ⟨word, us, endWord, ns, rfl, hw, he, huns, hread⟩ := exists_of_block hs hts
  exact ⟨.block ns word.line, by simp [Node.unplaced, Node.allUnplaced_eq_map, huns],
    ⟨word, _, rfl, by rw [hw]; rfl⟩, fun rest _ => statement_block hw (hread rest) he⟩

end

mutual

/-- **A statement in which nothing is empty is read across the gaps in it.** -/
theorem isReadAcross : ∀ n : Node, n.isWellFormed = true → n.isFull = true →
    IsReadAcross finish n
  | .ifThen condition thenBranch elseBranch line, h, hf => by
    simp only [Node.isWellFormed, Bool.and_eq_true, Bool.or_eq_true] at h
    obtain ⟨⟨⟨hc, hn⟩, hm⟩, hd⟩ := h
    unfold Node.isFull at hf
    by_cases he : elseBranch.isAbsent = true
    · rw [if_pos he] at hf
      obtain rfl := Node.eq_absent he
      exact isReadAcross_ifThen line hc (isReadAcross thenBranch hn hf)
    · rw [if_neg he, Bool.and_eq_true, Bool.or_eq_true] at hf
      refine isReadAcross_ifElse line hc ?_ (by simpa using he) (isReadAcross elseBranch hm hf.2)
      by_cases ha : thenBranch.isAbsent = true
      · exact .inl (Node.eq_absent ha)
      · exact .inr ⟨by simpa [he, ha] using hd,
          isReadAcross thenBranch hn (hf.1.resolve_left ha)⟩
  | .whileDo condition body line, h, hf => by
    simp only [Node.isWellFormed, Bool.and_eq_true] at h
    exact isReadAcross_whileDo line h.1 (isReadAcross body h.2 hf)
  | .forDo counter start stop downward body line, h, hf => by
    simp only [Node.isWellFormed, Bool.and_eq_true] at h
    exact isReadAcross_forDo counter downward line h.1.1 h.1.2 (isReadAcross body h.2 hf)
  | .repeatUntil statements condition line, h, hf => by
    simp only [Node.isWellFormed, Bool.and_eq_true] at h
    exact isReadAcross_repeatUntil line h.2
      (areReadAcross_listed (isReadAcross_of_mem statements h.1 hf))
  | .block statements line, h, hf =>
    isReadAcross_block line (areReadAcross_listed (isReadAcross_of_mem statements h hf))
  | .assignment _ _ _ _, h, _ | .write _ _ _, h, _ | .read _ _ _, h, _ | .call _ _ _, h, _ =>
    isReadAcross_of_isSimple h rfl
  | .expression e, h, hf => by
    cases e with
    | absent => cases hf
    | _ => cases h

theorem isReadAcross_of_mem : ∀ ns : List Node, Node.allWellFormed ns = true →
    Node.allFull ns = true →
    ∀ n ∈ ns, n.isAbsent = false ∧ n.isWellFormed = true ∧ IsReadAcross finish n
  | [], _, _, _, hn => nomatch hn
  | first :: rest, h, hf, n, hn => by
    simp only [Node.allWellFormed, Bool.and_eq_true, Bool.not_eq_true'] at h
    simp only [Node.allFull, Bool.and_eq_true] at hf
    rcases List.mem_cons.mp hn with hn | hn
    · exact hn ▸ ⟨h.1.1, h.1.2, isReadAcross first h.1.2 hf.1⟩
    · exact isReadAcross_of_mem rest h.2 hf.2 n hn

end

/-! ## Declarations -/

theorem body_across {b : Body} (hw : b.isWellFormed = true) (hf : b.isFull = true)
    (hts : LeavesOut b.printed ts gaps) : ∃ b' : Body, b'.unplaced = b.unplaced ∧
      (∀ rest, kindAhead (ts ++ rest) = .keyword .begin) ∧
      ∀ rest, body finish (ts ++ rest) = ⟨b', ts.length, missingSeparators gaps⟩ := by
  cases b with
  | missing => cases hw
  | block statements line =>
    have hs : AreReadAcross finish (Printed.listed (Node.printedEach statements)) statements :=
      areReadAcross_listed (isReadAcross_of_mem statements hw hf)
    obtain ⟨word, us, endWord, ns, rfl, hword, he, huns, hread⟩ := exists_of_block hs hts
    exact ⟨.block ns word.line, by simp [Body.unplaced, Node.allUnplaced_eq_map, huns],
      fun _ => hword, fun rest => body_of_statements hword (hread rest) he⟩

/-- Tokens that write the declaration with separators left out are read as the declaration, lines
aside, whatever declarations follow. -/
def IsDeclaredAcross (finish : EndMark) (n : Node) : Prop :=
  ∀ ts gaps, LeavesOut n.printedDeclaration ts gaps → ∃ n' : Node, n'.unplaced = n.unplaced ∧
    (∀ rest, endsTypeSection (kindAhead (ts ++ rest)) = true) ∧
    ∀ rest ns count faults, kindAhead rest ≠ .identifier →
      declarations finish rest = ⟨ns, count, faults⟩ →
      declarations finish (ts ++ rest) =
        ⟨n' :: ns, ts.length + count, missingSeparators gaps ++ faults⟩

theorem isDeclaredAcross_section (h : n.isSection = true) : IsDeclaredAcross finish n := by
  intro ts gaps hts
  have hprinted : n.printedDeclaration = Printed.plain n.printSection := by
    cases n <;> first | rfl | cases h
  rw [hprinted] at hts
  obtain ⟨hlexemes, rfl⟩ := hts.plain_inv
  obtain ⟨n', hun, hd⟩ := Node.isWritten_printSection h ts hlexemes
  refine ⟨n', hun, hd.begins, fun rest ns count faults hr hmore => ?_⟩
  cases hd with
  | vars hw hs => exact declarations_vars hw (varSection_of_derives hs hr) hmore
  | consts hw hs => exact declarations_consts hw (constSection_of_derives hs hr) hmore

/-- The tokens of the body of a routine, and the semicolon behind it. -/
theorem exists_of_bodyClosed {b : Body} (hw : b.isWellFormed = true) (hf : b.isFull = true)
    (hts : LeavesOut (b.printed ++ Printed.plain [.mark .semicolon]) ts gaps) :
    ∃ bs last b', ts = bs ++ [last] ∧ last.kind = .semicolon ∧ b'.unplaced = b.unplaced ∧
      ∀ rest, kindAhead (bs ++ rest) = .keyword .begin ∧
        body finish (bs ++ rest) = ⟨b', bs.length, missingSeparators gaps⟩ := by
  obtain ⟨bs, ls, gaps₁, gaps₂, rfl, rfl, h₁, h₂⟩ := hts.append_inv
  obtain ⟨hls, rfl⟩ := h₂.plain_inv
  obtain ⟨last, empty, rfl, hl, hempty⟩ := List.map_eq_cons_iff.mp hls
  obtain rfl := List.map_eq_nil_iff.mp hempty
  obtain ⟨b', hub, hbegin, hread⟩ := @body_across finish _ _ _ hw hf h₁
  rw [List.append_nil]
  exact ⟨bs, last, b', rfl, Token.kind_of_mark hl, hub, fun rest => ⟨hbegin rest, hread rest⟩⟩

theorem isDeclaredAcross_function (name : String) {parameters : List Parameter}
    {result : TypeSpec} {sections : List Node} {b : Body} (line : Int)
    (hp : ∀ p ∈ parameters, p.isWellFormed = true) (hr : result.isWellFormed = true)
    (hd : ∀ n ∈ sections, n.isSection = true) (hb : b.isWellFormed = true)
    (hf : b.isFull = true) :
    IsDeclaredAcross finish (.function name parameters result sections b line) := by
  intro ts gaps hts
  obtain ⟨hs, us, gaps₁, gaps₂, rfl, rfl, h₁, h₂⟩ := LeavesOut.append_inv hts
  obtain ⟨hlexemes, rfl⟩ := h₁.plain_inv
  obtain ⟨word, ts₁, rfl, hw, hts₁⟩ := List.map_eq_cons_iff.mp hlexemes
  obtain ⟨t, ts₂, rfl, ht, hts₂⟩ := List.map_eq_cons_iff.mp hts₁
  obtain ⟨hk, rfl⟩ := Token.of_name ht
  obtain ⟨ps, ts₃, rfl, hps, hts₃⟩ := List.map_eq_append_iff.mp hts₂
  obtain ⟨colon, ts₄, rfl, hc, hts₄⟩ := List.map_eq_cons_iff.mp hts₃
  obtain ⟨rs, ts₅, rfl, hrs, hts₅⟩ := List.map_eq_append_iff.mp hts₄
  obtain ⟨semicolon, ss, rfl, hs, hss⟩ := List.map_eq_cons_iff.mp hts₅
  obtain ⟨bs, last, b', rfl, hl, hub, hread⟩ := @exists_of_bodyClosed finish _ _ _ hb hf h₂
  obtain ⟨parameters', hup, hdp⟩ := isWritten_parameters hp ps hps
  obtain ⟨result', rfl, hdr⟩ := TypeSpec.isWritten_print hr rs hrs
  obtain ⟨sections', hus, hds⟩ :=
    isWritten_sequence (fun n hn => Node.isWritten_printSection (hd n hn)) ss hss
  have hkw : word.kind = .keyword .function := Token.kind_of_mark hw
  refine ⟨.function t.text parameters' result' sections' b' word.line,
    by simp [Node.unplaced, Node.allUnplaced_eq_map, hup, hus, hub],
    fun rest => by simp [hkw, endsTypeSection], fun rest ns count faults _ hmore => ?_⟩
  obtain ⟨hbegin, hbody⟩ := hread (last :: rest)
  have hone := functionDeclaration_of_body finish word.line hk hdp (Token.kind_of_mark hc) hdr
    (Token.kind_of_mark hs) hds hl hbegin hbody
  simpa using declarations_function hkw hone hmore

theorem isDeclaredAcross_procedure (name : String) {parameters : List Parameter}
    {sections : List Node} {b : Body} (line : Int)
    (hp : ∀ p ∈ parameters, p.isWellFormed = true) (hd : ∀ n ∈ sections, n.isSection = true)
    (hb : b.isWellFormed = true) (hf : b.isFull = true) :
    IsDeclaredAcross finish (.procedure name parameters sections b line) := by
  intro ts gaps hts
  obtain ⟨hs, us, gaps₁, gaps₂, rfl, rfl, h₁, h₂⟩ := LeavesOut.append_inv hts
  obtain ⟨hlexemes, rfl⟩ := h₁.plain_inv
  obtain ⟨word, ts₁, rfl, hw, hts₁⟩ := List.map_eq_cons_iff.mp hlexemes
  obtain ⟨t, ts₂, rfl, ht, hts₂⟩ := List.map_eq_cons_iff.mp hts₁
  obtain ⟨hk, rfl⟩ := Token.of_name ht
  obtain ⟨ps, ts₃, rfl, hps, hts₃⟩ := List.map_eq_append_iff.mp hts₂
  obtain ⟨semicolon, ss, rfl, hs, hss⟩ := List.map_eq_cons_iff.mp hts₃
  obtain ⟨bs, last, b', rfl, hl, hub, hread⟩ := @exists_of_bodyClosed finish _ _ _ hb hf h₂
  obtain ⟨parameters', hup, hdp⟩ := isWritten_parameters hp ps hps
  obtain ⟨sections', hus, hds⟩ :=
    isWritten_sequence (fun n hn => Node.isWritten_printSection (hd n hn)) ss hss
  have hkw : word.kind = .keyword .procedure := Token.kind_of_mark hw
  refine ⟨.procedure t.text parameters' sections' b' word.line,
    by simp [Node.unplaced, Node.allUnplaced_eq_map, hup, hus, hub],
    fun rest => by simp [hkw, endsTypeSection], fun rest ns count faults _ hmore => ?_⟩
  obtain ⟨hbegin, hbody⟩ := hread (last :: rest)
  have hone := procedureDeclaration_of_body finish word.line hk hdp (Token.kind_of_mark hs) hds hl
    hbegin hbody
  simpa using declarations_procedure hkw hone hmore

theorem isDeclaredAcross (h : n.isDeclaration = true) (hf : n.isFullDeclaration = true) :
    IsDeclaredAcross finish n := by
  cases n with
  | function name parameters result sections b line =>
    simp only [Node.isDeclaration, Bool.and_eq_true, List.all_eq_true] at h
    exact isDeclaredAcross_function name line h.1.1.1 h.1.1.2 h.1.2 h.2 hf
  | procedure name parameters sections b line =>
    simp only [Node.isDeclaration, Bool.and_eq_true, List.all_eq_true] at h
    exact isDeclaredAcross_procedure name line h.1.1 h.1.2 h.2 hf
  | _ => exact isDeclaredAcross_section h

/-- The declarations in front of the body, with separators left out. -/
theorem declarations_across {ns : List Node}
    (h : ∀ n ∈ ns, n.isDeclaration = true ∧ n.isFullDeclaration = true)
    (hts : LeavesOut (ns.flatMap Node.printedDeclaration) ts gaps) :
    ∃ ns' : List Node, ns'.map Node.unplaced = ns.map Node.unplaced ∧
      ∀ rest, kindAhead rest = .keyword .begin →
        endsTypeSection (kindAhead (ts ++ rest)) = true ∧
        declarations finish (ts ++ rest) = ⟨ns', ts.length, missingSeparators gaps⟩ := by
  induction ns generalizing ts gaps with
  | nil =>
    cases hts
    exact ⟨[], rfl, fun rest hr => ⟨by simp [hr, endsTypeSection], declarations_of_begin hr⟩⟩
  | cons n ns ih =>
    obtain ⟨us, vs, gaps₁, gaps₂, rfl, rfl, h₁, h₂⟩ := LeavesOut.append_inv hts
    obtain ⟨hn, hf⟩ := h n List.mem_cons_self
    obtain ⟨n', hun, hbegins, hread⟩ := @isDeclaredAcross finish _ hn hf us gaps₁ h₁
    obtain ⟨ns', huns, hreads⟩ := ih (fun m hm => h m (List.mem_cons_of_mem _ hm)) h₂
    refine ⟨n' :: ns', by rw [List.map_cons, List.map_cons, hun, huns], fun rest hr => ?_⟩
    obtain ⟨hends, hmore⟩ := hreads rest hr
    have hk := ne_identifier_of_endsTypeSection hends
    rw [List.append_assoc, List.length_append, missingSeparators_append]
    exact ⟨hbegins _, hread _ _ _ _ hk hmore⟩

/-! ## Programs -/

/-- **Missing separators are reported once per gap and cost nothing else.**  Tokens that write a
well-formed program without empty statements, with any of the separators of its statements left out,
are read as the program, lines aside, to their end; and the diagnostics are one for each gap, at the
first token of the statement behind it.  Nothing else is missing from the lexemes of the printed
program. -/
theorem parse_missing_separators {p : Program} (h : p.isWellFormed = true) (hf : p.isFull = true)
    (finish : EndMark) {ts gaps : List Token} (hts : LeavesOut p.printed ts gaps) :
    (Printed.write p.printed = p.print ∧ ts.length + gaps.length = p.print.length) ∧
    (parse (ts ++ [finish.token])).value.unplaced = p.unplaced ∧
    (parse (ts ++ [finish.token])).used = ts.length ∧
    (parse (ts ++ [finish.token])).faults.map GrammarFault.diagnostic = gaps.map fun t =>
      .of .error .syntactic s!"Expected ';' after statement but found {t.describe}"
        ⟨some t.line, some t.column⟩ "" := by
  have hwrite := Program.write_printed h
  refine ⟨⟨hwrite, hwrite ▸ hts.length_add_length⟩, ?_⟩
  simp only [Program.isWellFormed, Bool.and_eq_true, List.all_eq_true] at h
  simp only [Program.isFull, Bool.and_eq_true, List.all_eq_true] at hf
  obtain ⟨hs, us, gaps₁, gaps₂, rfl, rfl, h₁, h₂⟩ := LeavesOut.append_inv hts
  obtain ⟨hlexemes, rfl⟩ := h₁.plain_inv
  obtain ⟨word, ts₁, rfl, hw, hts₁⟩ := List.map_eq_cons_iff.mp hlexemes
  obtain ⟨name, ts₂, rfl, hn, hts₂⟩ := List.map_eq_cons_iff.mp hts₁
  obtain ⟨hk, htext⟩ := Token.of_name hn
  obtain ⟨semicolon, empty, rfl, hs, hempty⟩ := List.map_eq_cons_iff.mp hts₂
  obtain rfl := List.map_eq_nil_iff.mp hempty
  obtain ⟨ds, vs, gaps₃, gaps₄, rfl, rfl, h₃, h₄⟩ := h₂.append_inv
  obtain ⟨bs, ls, gaps₅, gaps₆, rfl, rfl, h₅, h₆⟩ := h₄.append_inv
  obtain ⟨hls, rfl⟩ := h₆.plain_inv
  obtain ⟨dot, empty, rfl, hdot, hempty⟩ := List.map_eq_cons_iff.mp hls
  obtain rfl := List.map_eq_nil_iff.mp hempty
  obtain ⟨b, hub, hbegin, hbody⟩ := @body_across finish _ _ _ h.2 hf.2 h₅
  obtain ⟨ns, huns, hdeclared⟩ := @declarations_across finish _ _ _
    (fun n hn => ⟨h.1 n hn, hf.1 n hn⟩) h₃
  obtain ⟨hends, hreads⟩ := hdeclared (bs ++ [dot]) (hbegin _)
  have hbs : bs ≠ [] := by
    rintro rfl
    exact absurd (hbegin []) (by decide)
  have hread := @program_of_parts finish [] _ _ ns b _ [] ds bs [dot] _
    (.plain (Token.kind_of_mark hw) hk (Token.kind_of_mark hs)) .none hends hreads hbs (hbody [dot])
    (.dot (Token.kind_of_mark hdot)) nofun
  simp only [List.nil_append, List.append_nil] at hread
  rw [parse_mark, hread]
  refine ⟨by simp [Program.unplaced, Node.allUnplaced_eq_map, htext, huns, hub], rfl, ?_⟩
  rw [List.nil_append, List.append_nil, ← missingSeparators_append]
  exact List.map_map

/-- An assignment, and a loop of two others. -/
def loopOfTwo : Program :=
  let assign (value : String) : Node := .assignment "x" (.literal value "integer" 1) .absent 1
  ⟨"two", [], .block [assign "1", .repeatUntil [assign "2", assign "3"] (.identifier "x" 1) 1] 1, 1⟩

/-- Nothing stands in front of the loop, and nothing between the assignments in it. -/
theorem parse_missing_separators_loopOfTwo :
    let token (l : Lexeme) : Token := ⟨l.kind, l.text, 0, 1, 1⟩
    let ts := (loopOfTwo.printed.map Printed.lexeme).map token
    let gaps := [token (.mark (.keyword .repeat)), token (.name "x")]
    let finish : EndMark := ⟨"", 0, 1, 1⟩
    (loopOfTwo.isWellFormed = true ∧ loopOfTwo.isFull = true ∧
      LeavesOut loopOfTwo.printed ts gaps) ∧
    (parse (ts ++ [finish.token])).value.unplaced = loopOfTwo.unplaced ∧
    (parse (ts ++ [finish.token])).faults.map GrammarFault.diagnostic = gaps.map fun t =>
      .of .error .syntactic s!"Expected ';' after statement but found {t.describe}"
        ⟨some t.line, some t.column⟩ "" := by
  intro token ts gaps finish
  have h : loopOfTwo.isWellFormed = true := by decide
  have hf : loopOfTwo.isFull = true := by decide
  have hts : LeavesOut loopOfTwo.printed ts gaps := by
    repeat first
      | exact .nil
      | refine .plain rfl rfl ?_
      | refine .gap rfl rfl ?_
  obtain ⟨-, hvalue, -, hfaults⟩ := parse_missing_separators h hf finish hts
  exact ⟨⟨h, hf, hts⟩, hvalue, hfaults⟩

end Grammar
end PascalCheck
