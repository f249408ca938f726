import PascalCheck.Proofs.Printing.Writing

/-! What the tokens of a printed statement are derived from: the statement itself, lines aside.  The
grammar without leniency is enough, since a well-formed loop has its end. -/
namespace PascalCheck
open Grammar

/-! ### Parts of statements -/

theorem Expr.eq_absent {e : Expr} (h : e.isAbsent = true) : e = .absent := by
  cases e <;> first | rfl | cases h

/-- A format that is given is written after a colon. -/
theorem Expr.printFormat_of_isWellFormed {e : Expr} (h : e.isWellFormed = true) :
    e.printFormat = .mark .colon :: e.print := by
  cases e <;> first | rfl | cases h

/-- An argument of `write` is written with as many of its formats as it has. -/
theorem WriteArgument.isWritten_print {argument : WriteArgument}
    (h : argument.isWellFormed = true) :
    IsWritten DerivesWriteArgument unplaced argument argument.print := by
  obtain ⟨value, width, decimals⟩ := argument
  simp only [isWellFormed, Bool.and_eq_true, Bool.or_eq_true] at h
  have hwritten : ∀ e : Expr, e.isWellFormed = true → e.IsWrittenAt .expression e.print :=
    fun e he => (e.isWritten_print he).expression
  intro ts hts
  obtain ⟨us, fs, rfl, hus, hfs⟩ := List.map_eq_append_iff.mp hts
  obtain ⟨v, hv, hdv⟩ := hwritten value h.1 us hus
  obtain ⟨gs, ds, rfl, hgs, hds⟩ := List.map_eq_append_iff.mp hfs
  -- A width and decimals, a width alone or neither.
  rcases h.2 with ⟨hw, hd⟩ | ⟨hw, hd⟩
  · obtain rfl := Expr.eq_absent hw
    obtain rfl := Expr.eq_absent hd
    obtain rfl : gs = [] := List.map_eq_nil_iff.mp hgs
    obtain rfl : ds = [] := List.map_eq_nil_iff.mp hds
    refine ⟨⟨v, .absent, .absent⟩, by simp [unplaced, hv], ?_⟩
    rw [List.append_nil, List.append_nil]
    exact .plain hdv
  · rw [Expr.printFormat_of_isWellFormed hw] at hgs
    obtain ⟨colon, ws, rfl, hc, hws⟩ := List.map_eq_cons_iff.mp hgs
    obtain ⟨w, hw, hdw⟩ := hwritten width hw ws hws
    rcases hd with hd | hd
    · obtain rfl := Expr.eq_absent hd
      obtain rfl : ds = [] := List.map_eq_nil_iff.mp hds
      refine ⟨⟨v, w, .absent⟩, by simp [unplaced, hv, hw], ?_⟩
      rw [List.append_nil]
      exact .width hdv (Token.kind_of_mark hc) hdw
    · rw [Expr.printFormat_of_isWellFormed hd] at hds
      obtain ⟨colon', xs, rfl, hc', hxs⟩ := List.map_eq_cons_iff.mp hds
      obtain ⟨d, hd, hdd⟩ := hwritten decimals hd xs hxs
      exact ⟨⟨v, w, d⟩, by simp [unplaced, hv, hw, hd],
        .decimals hdv (Token.kind_of_mark hc) hdw (Token.kind_of_mark hc') hdd⟩

/-- A target of `read` is a name, with or without an index. -/
theorem Target.isWritten_print {target : Target} (h : target.isWellFormed = true) :
    IsWritten DerivesTarget unplaced target target.print := by
  intro ts hts
  cases target with
  | name n line =>
    obtain ⟨t, rest, rfl, ht, hrest⟩ := List.map_eq_cons_iff.mp hts
    obtain rfl := List.map_eq_nil_iff.mp hrest
    obtain ⟨hk, rfl⟩ := Token.of_name ht
    exact ⟨.name t.text t.line, rfl, .name hk⟩
  | element n index line =>
    obtain ⟨t, rest, rfl, ht, hrest⟩ := List.map_eq_cons_iff.mp hts
    obtain ⟨hk, rfl⟩ := Token.of_name ht
    obtain ⟨o, us, c, rfl, ho, hus, hc⟩ := exists_of_between hrest
    obtain ⟨i, hi, hd⟩ := (index.isWritten_print h).expression us hus
    exact ⟨.element t.text i t.line, by simp [unplaced, hi], .element hk ho hd hc⟩

/-- The index of an assignment is written in brackets or left out. -/
theorem Expr.isWritten_printIndex {index : Expr}
    (h : index.isAbsent = true ∨ index.isWellFormed = true) :
    IsWritten DerivesIndex unplaced index index.printIndex := by
  intro ts hts
  unfold printIndex at hts
  split at hts
  next ha =>
    obtain rfl := List.map_eq_nil_iff.mp hts
    obtain rfl := eq_absent ha
    exact ⟨.absent, rfl, .none⟩
  next ha =>
    obtain ⟨o, us, c, rfl, ho, hus, hc⟩ := exists_of_between hts
    obtain ⟨i, hi, hd⟩ := (index.isWritten_print (h.resolve_left ha)).expression us hus
    exact ⟨i, hi, .index ho hd hc⟩

namespace Node

theorem allUnplaced_eq_map (ns : List Node) : allUnplaced ns = ns.map unplaced := by
  induction ns with
  | nil => rfl
  | cons n rest ih => exact congrArg (n.unplaced :: ·) ih

theorem printEach_eq_map (ns : List Node) : printEach ns = ns.map print := by
  induction ns with
  | nil => rfl
  | cons n rest ih => exact congrArg (n.print :: ·) ih

/-- The lexemes of the statement write it. -/
def IsWrittenStatement (n : Node) : Prop :=
  IsWritten (fun n => DerivesStatement false (.statement n)) unplaced n n.print

theorem eq_absent {n : Node} (h : n.isAbsent = true) : n = .absent := by
  cases n with
  | expression e => cases e <;> first | rfl | cases h
  | _ => cases h

/-! ### Lists of statements -/

/-- A list keeps all its statements if none of them is empty. -/
theorem derives_statements {lenient : Bool} {ns : List Node} {ts : List Token}
    (h : Separated .semicolon
      (fun n ts => n.isAbsent = false ∧ DerivesStatement lenient (.statement n) ts) ns ts) :
    DerivesStatement lenient (.statements ns) ts := by
  have hlisted : ∀ n : Node, n.isAbsent = false → n.listed = [n] := fun n hn => by
    simp [listed, hn]
  induction h with
  | single hb =>
    rw [← hlisted _ hb.1]
    exact .lastStatement hb.2
  | @cons n ns separator ts rs hb hs _ ih =>
    have hd := DerivesStatement.semicolon hb.2 hs ih
    rwa [hlisted n hb.1] at hd

/-- A list of statements is written with semicolons between, the empty list as the empty statement.
-/
theorem isWritten_statements {ns : List Node}
    (h : ∀ n ∈ ns, n.isAbsent = false ∧ n.IsWrittenStatement) :
    IsWritten (fun ns => DerivesStatement false (.statements ns)) (List.map unplaced) ns
      (Lexeme.joined .semicolon (printEach ns)) := by
  rw [printEach_eq_map]
  by_cases hne : ns = []
  · subst hne
    intro ts hts
    obtain rfl : ts = [] := List.map_eq_nil_iff.mp hts
    exact ⟨[], rfl, .lastStatement .empty⟩
  · refine IsWritten.imp (isWritten_joined hne fun n hn ts hts => ?_) fun _ _ => derives_statements
    obtain ⟨n', hn', hd⟩ := (h n hn).2 ts hts
    refine ⟨n', hn', ?_, hd⟩
    rw [← isAbsent_unplaced, hn', isAbsent_unplaced, (h n hn).1]

/-! ### Statements -/

section
variable {condition : Expr} {body thenBranch elseBranch : Node} {statements : List Node}

/-- An assignment is written as its target, its index and its value. -/
theorem isWritten_assignment (target : String) {value index : Expr} (line : Int)
    (hv : value.isWellFormed = true) (hi : index.isAbsent = true ∨ index.isWellFormed = true) :
    (assignment target value index line).IsWrittenStatement := by
  intro ts hts
  obtain ⟨t, rest, rfl, ht, hrest⟩ := List.map_eq_cons_iff.mp hts
  obtain ⟨hk, rfl⟩ := Token.of_name ht
  obtain ⟨is, bs, rfl, his, hbs⟩ := List.map_eq_append_iff.mp hrest
  obtain ⟨becomes, vs, rfl, hb, hvs⟩ := List.map_eq_cons_iff.mp hbs
  obtain ⟨i, hui, hdi⟩ := Expr.isWritten_printIndex hi is his
  obtain ⟨v, huv, hdv⟩ := (value.isWritten_print hv).expression vs hvs
  exact ⟨.assignment t.text v i t.line, by simp [unplaced, hui, huv],
    .assignment hk hdi (Token.kind_of_mark hb) hdv⟩

/-- A branch without an `else` may be of any form. -/
theorem isWritten_ifThen (line : Int) (hc : condition.isWellFormed = true)
    (hn : thenBranch.IsWrittenStatement) :
    (ifThen condition thenBranch .absent line).IsWrittenStatement := by
  intro ts hts
  obtain ⟨word, rest, rfl, hw, hrest⟩ := List.map_eq_cons_iff.mp hts
  obtain ⟨cs, xs, rfl, hcs, hxs⟩ := List.map_eq_append_iff.mp hrest
  obtain ⟨thenWord, ys, rfl, ht, hys⟩ := List.map_eq_cons_iff.mp hxs
  obtain ⟨c, huc, hdc⟩ := (condition.isWritten_print hc).expression cs hcs
  obtain ⟨n, hun, hdn⟩ := hn ys (by simpa [isAbsent] using hys)
  exact ⟨.ifThen c n .absent word.line, by simp [unplaced, huc, hun],
    .ifThen (Token.kind_of_mark hw) hdc (Token.kind_of_mark ht) hdn⟩

/-- The branch in front of the `else` is read back as one that the `else` is no part of. -/
theorem isWritten_ifElse (line : Int) (hc : condition.isWellFormed = true)
    (hn : thenBranch.IsWrittenStatement) (hm : elseBranch.IsWrittenStatement)
    (he : elseBranch.isAbsent = false)
    (hd : thenBranch.isAbsent = true ∨ thenBranch.isClosed = true) :
    (ifThen condition thenBranch elseBranch line).IsWrittenStatement := by
  intro ts hts
  obtain ⟨word, rest, rfl, hw, hrest⟩ := List.map_eq_cons_iff.mp hts
  obtain ⟨cs, xs, rfl, hcs, hxs⟩ := List.map_eq_append_iff.mp hrest
  obtain ⟨thenWord, ys, rfl, ht, hys⟩ := List.map_eq_cons_iff.mp hxs
  rw [if_neg (by simp [he])] at hys
  obtain ⟨ns, zs, rfl, hns, hzs⟩ := List.map_eq_append_iff.mp hys
  obtain ⟨elseWord, ms, rfl, hw', hms⟩ := List.map_eq_cons_iff.mp hzs
  obtain ⟨c, huc, hdc⟩ := (condition.isWritten_print hc).expression cs hcs
  obtain ⟨n, hun, hdn⟩ := hn ns hns
  obtain ⟨m, hum, hdm⟩ := hm ms hms
  have hbranch : n.isAbsent = true ∨ n.isClosed = true := by
    -- The branch that is derived is the printed one up to lines, and lines do not matter here.
    rw [← isAbsent_unplaced, ← isClosed_unplaced, hun, isAbsent_unplaced, isClosed_unplaced]
    exact hd
  exact ⟨.ifThen c n m word.line, by simp [unplaced, huc, hun, hum],
    .ifElse (Token.kind_of_mark hw) hdc (Token.kind_of_mark ht) hdn hbranch
      (Token.kind_of_mark hw') hdm⟩

theorem isWritten_whileDo (line : Int) (hc : condition.isWellFormed = true)
    (hb : body.IsWrittenStatement) : (whileDo condition body line).IsWrittenStatement := by
  intro ts hts
  obtain ⟨word, rest, rfl, hw, hrest⟩ := List.map_eq_cons_iff.mp hts
  obtain ⟨cs, xs, rfl, hcs, hxs⟩ := List.map_eq_append_iff.mp hrest
  obtain ⟨doWord, ns, rfl, hdo, hns⟩ := List.map_eq_cons_iff.mp hxs
  obtain ⟨c, huc, hdc⟩ := (condition.isWritten_print hc).expression cs hcs
  obtain ⟨n, hun, hdn⟩ := hb ns hns
  exact ⟨.whileDo c n word.line, by simp [unplaced, huc, hun],
    .whileDo (Token.kind_of_mark hw) hdc (Token.kind_of_mark hdo) hdn⟩

/-- A loop is written with both bounds, so that no leniency is needed to read it. -/
theorem isWritten_forDo (counter : String) {start finish : Expr} (downward : Bool) (line : Int)
    (hs : start.isWellFormed = true) (hf : finish.isWellFormed = true)
    (hb : body.IsWrittenStatement) :
    (forDo counter start finish downward body line).IsWrittenStatement := by
  intro ts hts
  obtain ⟨word, rest, rfl, hw, hrest⟩ := List.map_eq_cons_iff.mp hts
  obtain ⟨t, ws, rfl, ht, hws⟩ := List.map_eq_cons_iff.mp hrest
  obtain ⟨hk, rfl⟩ := Token.of_name ht
  obtain ⟨becomes, xs, rfl, hbecomes, hxs⟩ := List.map_eq_cons_iff.mp hws
  obtain ⟨as, ys, rfl, has, hys⟩ := List.map_eq_append_iff.mp hxs
  obtain ⟨direction, zs, rfl, hdirection, hzs⟩ := List.map_eq_cons_iff.mp hys
  obtain ⟨bs, us, rfl, hbs, hus⟩ := List.map_eq_append_iff.mp hzs
  obtain ⟨doWord, ns, rfl, hdo, hns⟩ := List.map_eq_cons_iff.mp hus
  obtain ⟨a, hua, hda⟩ := (start.isWritten_print hs).expression as has
  obtain ⟨b, hub, hdb⟩ := (finish.isWritten_print hf).expression bs hbs
  obtain ⟨n, hun, hdn⟩ := hb ns hns
  exact ⟨.forDo t.text a b downward n word.line, by simp [unplaced, hua, hub, hun],
    .forDo (Token.kind_of_mark hw) hk (Token.kind_of_mark hbecomes) hda
      (Token.kind_of_mark hdirection) (.bound hdb) (Token.kind_of_mark hdo) hdn⟩

theorem isWritten_repeatUntil (line : Int) (hc : condition.isWellFormed = true)
    (hn : ∀ n ∈ statements, n.isAbsent = false ∧ n.IsWrittenStatement) :
    (repeatUntil statements condition line).IsWrittenStatement := by
  intro ts hts
  obtain ⟨word, rest, rfl, hw, hrest⟩ := List.map_eq_cons_iff.mp hts
  obtain ⟨ss, xs, rfl, hss, hxs⟩ := List.map_eq_append_iff.mp hrest
  obtain ⟨untilWord, cs, rfl, hu, hcs⟩ := List.map_eq_cons_iff.mp hxs
  obtain ⟨ns, huns, hdns⟩ := isWritten_statements hn ss hss
  obtain ⟨c, huc, hdc⟩ := (condition.isWritten_print hc).expression cs hcs
  exact ⟨.repeatUntil ns c word.line, by simp [unplaced, allUnplaced_eq_map, huns, huc],
    .repeatUntil (Token.kind_of_mark hw) hdns (Token.kind_of_mark hu) hdc⟩

theorem isWritten_block (line : Int)
    (hn : ∀ n ∈ statements, n.isAbsent = false ∧ n.IsWrittenStatement) :
    (block statements line).IsWrittenStatement := by
  intro ts hts
  obtain ⟨word, us, endWord, rfl, hw, hus, he⟩ := exists_of_between hts
  obtain ⟨ns, huns, hdns⟩ := isWritten_statements hn us hus
  exact ⟨.block ns word.line, by simp [unplaced, allUnplaced_eq_map, huns], .block hw hdns he⟩

/-- Both words for writing are one rule of the grammar. -/
theorem isWritten_write {routine : String} {arguments : List WriteArgument} (line : Int)
    (hr : routine = "write" ∨ routine = "writeln")
    (ha : ∀ a ∈ arguments, a.isWellFormed = true) :
    (write routine arguments line).IsWrittenStatement := by
  intro ts hts
  obtain ⟨word, rest, rfl, hw, hrest⟩ := List.map_eq_cons_iff.mp hts
  obtain ⟨hk, rfl⟩ := Token.of_wordOf hw hr
  obtain ⟨as, huas, hdas⟩ := isWritten_parenthesized
    (fun a h => WriteArgument.isWritten_print (ha a h)) rest hrest
  exact ⟨.write word.text as word.line, by simp [unplaced, huas], .write hk hdas⟩

theorem isWritten_read {routine : String} {targets : List Target} (line : Int)
    (hr : routine = "read" ∨ routine = "readln")
    (ht : ∀ t ∈ targets, t.isWellFormed = true) :
    (read routine targets line).IsWrittenStatement := by
  intro ts hts
  obtain ⟨word, rest, rfl, hw, hrest⟩ := List.map_eq_cons_iff.mp hts
  obtain ⟨hk, rfl⟩ := Token.of_wordOf hw hr
  obtain ⟨as, huas, hdas⟩ := isWritten_parenthesized
    (fun t h => Target.isWritten_print (ht t h)) rest hrest
  exact ⟨.read word.text as word.line, by simp [unplaced, huas], .read hk hdas⟩

/-- A call without arguments is written as the name alone. -/
theorem isWritten_call (name : String) {arguments : List Expr} (line : Int)
    (h : Expr.allWellFormed arguments = true) :
    (call name arguments line).IsWrittenStatement := by
  intro ts hts
  obtain ⟨t, rest, rfl, ht, hrest⟩ := List.map_eq_cons_iff.mp hts
  obtain ⟨hk, rfl⟩ := Token.of_name ht
  rw [Expr.printEach_eq_map] at hrest
  obtain ⟨es, hues, hdes⟩ := isWritten_parenthesized
    (fun e he => (Expr.isWritten_printEach arguments h e he).expression) rest hrest
  have harguments : Parenthesized (fun es => Derives (.arguments es)) (es.map id) rest :=
    hdes.map id fun es us hd => by simpa using Derives.of_separated hd
  rw [List.map_id] at harguments
  exact ⟨.call t.text es t.line, by simp [unplaced, Expr.allUnplaced_eq_map, hues],
    .call hk harguments⟩

end

theorem isWritten_empty : absent.IsWrittenStatement := by
  intro ts hts
  obtain rfl : ts = [] := List.map_eq_nil_iff.mp hts
  exact ⟨.absent, rfl, .empty⟩

mutual

/-- **A statement is written.** -/
theorem isWritten_print : ∀ n : Node, n.isWellFormed = true → n.IsWrittenStatement
  | .absent, _ => isWritten_empty
  | assignment target value index line, h => by
    simp only [isWellFormed, Bool.and_eq_true, Bool.or_eq_true] at h
    exact isWritten_assignment target line h.1 h.2
  | ifThen condition thenBranch elseBranch line, h => by
    simp only [isWellFormed, Bool.and_eq_true, Bool.or_eq_true] at h
    obtain ⟨⟨⟨hc, hn⟩, hm⟩, hd⟩ := h
    by_cases he : elseBranch.isAbsent = true
    · obtain rfl := eq_absent he
      exact isWritten_ifThen line hc (isWritten_print thenBranch hn)
    · have hbranch : thenBranch.isAbsent = true ∨ thenBranch.isClosed = true := by
        simpa [he] using hd
      exact isWritten_ifElse line hc (isWritten_print thenBranch hn)
        (isWritten_print elseBranch hm) (by simpa using he) hbranch
  | whileDo condition body line, h => by
    simp only [isWellFormed, Bool.and_eq_true] at h
    exact isWritten_whileDo line h.1 (isWritten_print body h.2)
  | forDo counter start finish downward body line, h => by
    simp only [isWellFormed, Bool.and_eq_true] at h
    exact isWritten_forDo counter downward line h.1.1 h.1.2 (isWritten_print body h.2)
  | repeatUntil statements condition line, h => by
    simp only [isWellFormed, Bool.and_eq_true] at h
    exact isWritten_repeatUntil line h.2 (isWritten_printEach statements h.1)
  | write routine arguments line, h => by
    simp only [isWellFormed, Bool.and_eq_true, Bool.or_eq_true, decide_eq_true_eq,
      List.all_eq_true] at h
    exact isWritten_write line h.1 h.2
  | read routine targets line, h => by
    simp only [isWellFormed, Bool.and_eq_true, Bool.or_eq_true, decide_eq_true_eq,
      List.all_eq_true] at h
    exact isWritten_read line h.1 h.2
  | call name arguments line, h => isWritten_call name line h
  | block statements line, h => isWritten_block line (isWritten_printEach statements h)

theorem isWritten_printEach : ∀ ns : List Node, allWellFormed ns = true →
    ∀ n ∈ ns, n.isAbsent = false ∧ n.IsWrittenStatement
  | [], _, _, hn => nomatch hn
  | first :: rest, h, n, hn => by
    simp only [allWellFormed, Bool.and_eq_true, Bool.not_eq_true'] at h
    rcases List.mem_cons.mp hn with hn | hn
    · exact hn ▸ ⟨h.1.1, isWritten_print first h.1.2⟩
    · exact isWritten_printEach rest h.2 n hn

end

end Node
end PascalCheck
