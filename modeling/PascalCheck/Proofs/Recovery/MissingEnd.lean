import PascalCheck.Proofs.Grammar.DeclarationGrammar
import PascalCheck.Proofs.Recovery.Record

/-! # An absent end is given the type of errors

Where the lenient grammar lets a loop with a counter do without its end, the walk gives the absent
end the type of errors.  So a program that the lenient grammar derives is one of the strict grammar,
or its analysis records this (`Recording.strict_or_records`). -/
namespace PascalCheck

/-- The type that is given where the end of a loop with a counter is absent. -/
def GivenType.missing : GivenType :=
  ⟨.absent, .error⟩

namespace Recording

variable {catalogue : Catalogue}

/-- Wherever the step gives a result, it has recorded the type. -/
def Records (given : GivenType) {α : Type} (m : Recording α) : Prop :=
  ∀ s a recorded s', StateT.run m.withRecord s = .ok ((a, recorded), s') → given ∈ recorded

namespace Records
variable {α β : Type} {given : GivenType} {m : Recording α} {f : α → Recording β}

/-- What the first step records is recorded. -/
theorem bind_left (h : Records given m) : Records given (m >>= f) := by
  intro s b recorded s'' hrun
  obtain ⟨a, before, s', after, hm, -, rfl⟩ := exists_of_run_bind hrun
  exact List.mem_append_left _ (h s a before s' hm)

/-- What the second step records is recorded, whatever the first one gives. -/
theorem bind_right (h : ∀ a, Records given (f a)) : Records given (m >>= f) := by
  intro s b recorded s'' hrun
  obtain ⟨a, before, s', after, -, hf, rfl⟩ := exists_of_run_bind hrun
  exact List.mem_append_right _ (h a s' b after s'' hf)

end Records

/-! ## Statements -/

/-- The check of an absent bound asks for its type, and this is recorded. -/
theorem records_checkBound_absent (which : Bound) (line : Int) :
    Records .missing (checkBound catalogue which .absent line) := by
  refine Records.bind_left fun s ty recorded s' hrun => ?_
  cases hrun
  exact List.mem_singleton_self _

/-- What the walk over one statement records, the walk over the list does. -/
theorem records_walkAll {nodes : List Node} {node : Node} (hnode : node ∈ nodes)
    (h : Records .missing (walk catalogue node)) :
    Records .missing (walkAll catalogue nodes) := by
  induction nodes with
  | nil => cases hnode
  | cons first rest ih =>
    rcases List.mem_cons.mp hnode with rfl | hrest
    · exact h.bind_left
    · exact .bind_right fun _ => ih hrest

theorem not_records_absent : ¬ Records .missing (walk catalogue .absent) :=
  fun h => List.not_mem_nil (h {} () [] {} rfl)

/-- An absent statement records nothing, so that one that records is kept in the list. -/
theorem records_listed {node : Node} (h : Records .missing (walk catalogue node)) :
    ∃ other ∈ node.listed, Records .missing (walk catalogue other) := by
  refine ⟨node, ?_, h⟩
  unfold Node.listed
  split
  next habsent =>
    -- The empty statement is not listed, but it records nothing either.
    unfold Node.isAbsent at habsent
    split at habsent
    · exact absurd h not_records_absent
    · cases habsent
  next => exact List.mem_singleton_self _

/-- The walk over the statement, or over one of the statements, records an absent end. -/
def RecordsMissing (catalogue : Catalogue) : Grammar.StatementPhrase → Prop
  | .statement node => Records .missing (walk catalogue node)
  | .statements nodes => ∃ node ∈ nodes, Records .missing (walk catalogue node)

theorem RecordsMissing.walkAll {nodes : List Node}
    (h : RecordsMissing catalogue (.statements nodes)) :
    Records .missing (walkAll catalogue nodes) :=
  have ⟨_, hnode, hrecords⟩ := h
  records_walkAll hnode hrecords

theorem records_walkFor_body {counter : String} {start finish : Expr} {downward : Bool}
    {body : Node} {line : Int} (h : Records .missing (walk catalogue body)) :
    Records .missing (walk catalogue (.forDo counter start finish downward body line)) := by
  refine .bind_right fun _ => .bind_right fun _ => .bind_right fun _ => ?_
  dsimp only
  split
  · exact .bind_right fun _ => h.bind_left
  · exact h.bind_left

/-- Statements that the lenient grammar derives are those of the strict one, unless an absent end is
recorded. -/
theorem statement_strict_or_records {lenient : Bool} {p : Grammar.StatementPhrase} {ts : List Token}
    (h : Grammar.DerivesStatement lenient p ts) :
    Grammar.DerivesStatement false p ts ∨ RecordsMissing catalogue p := by
  induction h with
  | empty => exact .inl .empty
  | assignment hn hi hb hv => exact .inl (.assignment hn hi hb hv)
  | call hn hs => exact .inl (.call hn hs)
  | ifThen hw hc ht _ ih =>
    exact ih.imp (.ifThen hw hc ht) fun h => .bind_right fun _ => h.bind_left
  | ifElse hw hc ht _ hd he _ ihn ihm =>
    rcases ihn with hn | hn
    · exact ihm.imp (.ifElse hw hc ht hn hd he) fun h => .bind_right fun _ => .bind_right fun _ => h
    · exact .inr (.bind_right fun _ => Records.bind_left hn)
  | whileDo hw hc hd _ ih => exact ih.imp (.whileDo hw hc hd) fun h => .bind_right fun _ => h
  | forDo hw hn hb ha hd he hdo _ ih =>
    cases he with
    | bound hfinish =>
      exact ih.imp (.forDo hw hn hb ha hd (.bound hfinish) hdo) records_walkFor_body
    | none _ =>
      exact .inr (.bind_right fun _ => .bind_right fun _ =>
        (records_checkBound_absent .finish _).bind_left)
  | repeatUntil hw _ hu hc ih =>
    exact ih.imp (.repeatUntil hw · hu hc) fun h => h.walkAll.bind_left
  | write hw has => exact .inl (.write hw has)
  | read hw has => exact .inl (.read hw has)
  | block hw _ he ih =>
    exact ih.imp (.block hw · he) fun h => .bind_right fun _ => h.walkAll.bind_left
  | lastStatement _ ih => exact ih.imp .lastStatement records_listed
  | semicolon _ hs _ ihn ihns =>
    rcases ihn with hn | hn
    · refine ihns.imp (.semicolon hn hs) fun ⟨node, hnode, hrecords⟩ => ?_
      exact ⟨node, List.mem_append_right _ hnode, hrecords⟩
    · obtain ⟨node, hnode, hrecords⟩ := records_listed hn
      exact .inr ⟨node, List.mem_append_left _ hnode, hrecords⟩

/-! ## Programs -/

/-- A body is derived strictly unless a statement in it records. -/
theorem body_strict_or_records {lenient : Bool} {body : Body} {ts : List Token}
    (h : Grammar.DerivesBody lenient body ts) :
    Grammar.DerivesBody false body ts ∨ Records .missing (walkBody catalogue body) := by
  cases h with
  | block hw hn he => exact (statement_strict_or_records hn).imp (.block hw · he) (·.walkAll)

theorem routine_strict_or_records {lenient : Bool} {node : Node} {ts : List Token}
    (h : Grammar.DerivesRoutine lenient node ts) :
    Grammar.DerivesRoutine false node ts ∨ Records .missing (walk catalogue node) := by
  cases h with
  | function hw hn hp hc hr hs hd hb hl =>
    exact (body_strict_or_records hb).imp (.function hw hn hp hc hr hs hd · hl) fun h =>
      .bind_right fun _ => .bind_right fun _ => h.bind_left
  | procedure hw hn hp hs hd hb hl =>
    exact (body_strict_or_records hb).imp (.procedure hw hn hp hs hd · hl) fun h =>
      .bind_right fun _ => .bind_right fun _ => h.bind_left

theorem declarations_strict_or_records {lenient : Bool} {nodes : List Node} {ts : List Token}
    (h : Grammar.DerivesDeclarations lenient nodes ts) :
    Grammar.DerivesDeclarations false nodes ts ∨ Records .missing (walkAll catalogue nodes) := by
  induction h with
  | nil => exact .inl .nil
  | «section» hn _ ih => exact ih.imp (.section hn) fun h => .bind_right fun _ => h
  | routine hn _ ih =>
    rcases routine_strict_or_records hn with hn | hn
    · exact ih.imp (.routine hn) fun h => .bind_right fun _ => h
    · exact .inr hn.bind_left
  | types hw hin _ ih => exact ih.imp_left (.types hw hin)

/-- **A derived program is one of the strict grammar, unless its run records an absent end.** -/
theorem strict_or_records {lenient : Bool} {p : Program} {ts : List Token}
    (h : Grammar.DerivesProgram lenient p ts) :
    Grammar.DerivesProgram false p ts ∨ Records .missing (program catalogue p) := by
  cases h with
  | program hh hu hd hb he =>
    rcases declarations_strict_or_records hd with hd | hd
    · exact (body_strict_or_records hb).imp (.program hh hu hd · he) fun h =>
        Records.bind_left (.bind_right fun _ => h)
    · exact .inr (Records.bind_left (Records.bind_left hd))

end Recording
end PascalCheck
