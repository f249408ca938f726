import PascalCheck.Proofs.Grammar.Bounds
import PascalCheck.Proofs.Walk.Lines

/-! # Where the reader finds faults, and what it takes lines from

The reader goes from each token to the next and finds faults at the token that it has come to, so
that it finds them one after another in the order of the text: a rule finds its faults at places
that do not go back, and none of them behind the first token that it leaves (`Step.IsLocated`).

Whatever it builds, also around what is missing, it puts on the line of a token or of the mark
behind the tokens.  So a property of the lines of all tokens is one of the lines of all steps of a
walk over the tree. -/
namespace PascalCheck

namespace Step
variable {α β : Type}

/-- The value of the step has the property, and its faults are found at one token after another,
each at one that is used or at the one that comes next. -/
structure IsLocated (finish : EndMark) (V : α → Prop) (step : Step α) (tokens : List Token) :
    Prop where
  value : V step.value
  places : ∃ places : List Nat, places.Pairwise (· ≤ ·) ∧ (∀ place ∈ places, place ≤ step.used) ∧
    step.faults.map GrammarFault.found =
      places.map fun place => Grammar.next finish (tokens.drop place)

namespace IsLocated
variable {finish : EndMark} {V : α → Prop} {W : β → Prop} {first step : Step α} {second : Step β}
  {tokens : List Token}

/-- A step that finds no fault. -/
theorem of_faultless {value : α} (hv : V value) (count : Nat) (tokens : List Token) :
    (⟨value, count, []⟩ : Step α).IsLocated finish V tokens :=
  ⟨hv, [], .nil, nofun, rfl⟩

theorem as (h : step.IsLocated finish V tokens) {value : β} (hw : W value) :
    (step.as value).IsLocated finish W tokens :=
  ⟨hw, h.places⟩

/-- What is found second is not found in front of what was found first. -/
theorem andThen (h : first.IsLocated finish V tokens)
    (h' : second.IsLocated finish W (tokens.drop first.used)) :
    (first.andThen second).IsLocated finish W tokens := by
  obtain ⟨places, hordered, hwithin, hfound⟩ := h.places
  obtain ⟨places', hordered', hwithin', hfound'⟩ := h'.places
  refine ⟨h'.value, places ++ places'.map (first.used + ·), ?_, ?_, ?_⟩
  · rw [List.pairwise_append]
    refine ⟨hordered, ?_, ?_⟩
    · exact List.pairwise_map.mpr (hordered'.imp fun hle => Nat.add_le_add_left hle _)
    · intro place hplace other hother
      obtain ⟨place', -, rfl⟩ := List.mem_map.mp hother
      exact Nat.le_trans (hwithin place hplace) (Nat.le_add_right _ _)
  · intro place hplace
    rw [andThen_used]
    rcases List.mem_append.mp hplace with hfirst | hsecond
    · exact Nat.le_trans (hwithin place hfirst) (Nat.le_add_right _ _)
    · obtain ⟨place', hplace', rfl⟩ := List.mem_map.mp hsecond
      exact Nat.add_le_add_left (hwithin' place' hplace') _
  · rw [andThen_faults, List.map_append, hfound, hfound', List.map_append, List.map_map]
    refine congrArg _ (List.map_congr_left fun place _ => ?_)
    rw [List.drop_drop]
    rfl

/-- Behind tokens that are used. -/
theorem past_drop {count : Nat} (h : step.IsLocated finish V (tokens.drop count)) :
    (step.past count).IsLocated finish V tokens := by
  have hnothing : (⟨step.value, count, []⟩ : Step α).IsLocated finish V tokens :=
    of_faultless h.value count tokens
  have hboth := hnothing.andThen h
  exact ⟨h.value, hboth.places⟩

/-- Behind one token that is used. -/
theorem past {t : Token} {rest : List Token} (h : step.IsLocated finish V rest) :
    (step.past 1).IsLocated finish V (t :: rest) := by
  refine past_drop ?_
  exact h

end IsLocated
end Step

/-! ## Lines -/

variable {Q : Int → Prop}

/-- The lines of the walk over the expression have the property. -/
abbrev Expr.StandsOn (Q : Int → Prop) (e : Expr) : Prop :=
  StandOn Q e.script

/-- The lines of the walk over the expressions have the property. -/
abbrev Expr.EachStandsOn (Q : Int → Prop) (es : List Expr) : Prop :=
  StandOn Q (Expr.scripts es)

/-- The lines of the walk over the declaration or statement have the property. -/
abbrev Node.StandsOn (Q : Int → Prop) (node : Node) : Prop :=
  StandOn Q node.script

/-- The lines of the walk over the value to write have the property. -/
abbrev WriteArgument.StandsOn (Q : Int → Prop) (argument : WriteArgument) : Prop :=
  StandOn Q argument.script

/-- The lines of the walk over the place to read into have the property. -/
abbrev Target.StandsOn (Q : Int → Prop) (target : Target) : Prop :=
  ∀ routine, StandOn Q (target.script routine)

/-- The property has nothing to hold of. -/
theorem Action.standsOn_of_lines {action : Action} (h : action.lines = []) : action.StandsOn Q := by
  intro line hline
  rw [h] at hline
  cases hline

/-- A step with one line stands there. -/
theorem Action.standsOn_of_line {action : Action} {line : Int} (h : Q line)
    (hlines : action.lines = [line]) : action.StandsOn Q := by
  intro other hother
  rw [hlines] at hother
  obtain rfl := List.mem_singleton.mp hother
  exact h

theorem Expr.standsOn_absent : Expr.absent.StandsOn Q :=
  .single (Action.standsOn_of_lines rfl)

theorem Expr.standsOn_placeholder (text : String) (line : Int) :
    (Expr.placeholder text line).StandsOn Q :=
  .single (Action.standsOn_of_lines rfl)

/-- A literal is typed without a report, wherever it stands. -/
theorem Expr.standsOn_literal (value typeName : String) (line : Int) :
    (Expr.literal value typeName line).StandsOn Q :=
  .single (Action.standsOn_of_lines rfl)

theorem Expr.standsOn_identifier {line : Int} (h : Q line) (name : String) :
    (Expr.identifier name line).StandsOn Q :=
  .single (Action.standsOn_of_line h rfl)

theorem Expr.EachStandsOn.cons {e : Expr} {es : List Expr} (h : e.StandsOn Q)
    (hs : EachStandsOn Q es) : EachStandsOn Q (e :: es) :=
  h.append hs

theorem Expr.EachStandsOn.call {es : List Expr} (h : EachStandsOn Q es) {line : Int}
    (hline : Q line) (name : String) : (Expr.call name es line).StandsOn Q :=
  .append h (.single (Action.standsOn_of_line hline rfl))

theorem Expr.StandsOn.element {index : Expr} (h : index.StandsOn Q) {line : Int} (hline : Q line)
    (name : String) : (Expr.element name index line).StandsOn Q :=
  .append h (.single (Action.standsOn_of_line hline rfl))

theorem Expr.StandsOn.unary {e : Expr} (h : e.StandsOn Q) {line : Int} (hline : Q line)
    (op : String) : (Expr.unary op e line).StandsOn Q :=
  .append h (.single (Action.standsOn_of_line hline rfl))

/-- An operation stands on the line of its operator, and its operands on theirs. -/
theorem Expr.StandsOn.binary {left right : Expr} (h : left.StandsOn Q) (h' : right.StandsOn Q)
    {line : Int} (hline : Q line) (op : String) : (Expr.binary op left right line).StandsOn Q :=
  .append (.append h h') (.single (Action.standsOn_of_line hline rfl))

theorem Node.standsOn_absent : Node.absent.StandsOn Q :=
  .append Expr.standsOn_absent (.single (Action.standsOn_of_lines rfl))

namespace Grammar

open Step

/-- The tokens, and the mark behind them, stand on lines with the property. -/
structure OnLines (finish : EndMark) (Q : Int → Prop) (tokens : List Token) : Prop where
  mark : Q finish.line
  token : ∀ t ∈ tokens, Q t.line

namespace OnLines
variable {finish : EndMark} {t : Token} {tokens rest : List Token}

theorem drop (h : OnLines finish Q tokens) (count : Nat) : OnLines finish Q (tokens.drop count) :=
  ⟨h.mark, fun t ht => h.token t (List.mem_of_mem_drop ht)⟩

theorem head (h : OnLines finish Q (t :: rest)) : Q t.line :=
  h.token t List.mem_cons_self

theorem tail (h : OnLines finish Q (t :: rest)) : OnLines finish Q rest :=
  h.drop 1

/-- The next token or, behind the last one, the mark of the end. -/
theorem next (h : OnLines finish Q tokens) : Q (next finish tokens).line := by
  cases tokens with
  | nil => exact h.mark
  | cons t rest => exact h.head

end OnLines

variable {finish : EndMark}

/-! ## Single tokens -/

/-- A refusal is at what is next. -/
theorem isLocated_refuse (demand : Demand) (tokens : List Token) :
    (refuse finish demand tokens).IsLocated finish (fun _ => True) tokens :=
  ⟨trivial, [0], List.pairwise_singleton _ _, List.forall_mem_singleton.mpr (Nat.zero_le _), rfl⟩

theorem isLocated_accept (kind : TokenKind) (tokens : List Token) :
    (accept kind tokens).IsLocated finish (fun _ => True) tokens := by
  cases tokens with
  | nil => exact .of_faultless trivial 0 []
  | cons t rest =>
    rw [accept]
    split
    · exact .of_faultless trivial 1 (t :: rest)
    · exact .of_faultless trivial 0 (t :: rest)

/-- A token that is found where it is expected is one of the tokens. -/
theorem isLocated_expect {tokens : List Token} (h : OnLines finish Q tokens) (kind : TokenKind) :
    (expect finish kind tokens).IsLocated finish (fun found => ∀ t ∈ found, Q t.line) tokens := by
  cases tokens with
  | nil => exact (isLocated_refuse (.token kind) []).as nofun
  | cons t rest =>
    rw [expect]
    split
    · refine .of_faultless (fun u hu => ?_) 1 (t :: rest)
      obtain rfl := Option.some.inj hu
      exact h.head
    · exact (isLocated_refuse (.token kind) (t :: rest)).as nofun

/-! ## Lists -/

section Lists
variable {α β γ : Type} {kind : TokenKind} {a : Assembly α β γ} {item : List Token → Step α}
  {more : List Token → Step γ} {V : α → Prop} {W : γ → Prop} {tokens : List Token}

/-- A list has the property of lists if its items have theirs. -/
structure Assembly.Lifts (a : Assembly α β γ) (V : α → Prop)
    (W : γ → Prop) : Prop where
  nil : W a.nil
  cons : ∀ {x xs}, V x → W xs → W (a.cons x xs)

/-- A list has the property if its items have it. -/
theorem lifts_items (V : α → Prop) :
    (Assembly.items : Assembly α α (List α)).Lifts V (fun xs => ∀ x ∈ xs, V x) :=
  ⟨nofun, fun hx hxs => List.forall_mem_cons.mpr ⟨hx, hxs⟩⟩

theorem lifts_optional (V : α → Prop) :
    (Assembly.optional : Assembly (List α) α (List α)).Lifts (fun xs => ∀ x ∈ xs, V x)
      (fun xs => ∀ x ∈ xs, V x) :=
  ⟨nofun, fun hx hxs => List.forall_mem_append.mpr ⟨hx, hxs⟩⟩

theorem lifts_groups (V : α → Prop) :
    (Assembly.groups : Assembly (List α) (List α) (List α)).Lifts (fun xs => ∀ x ∈ xs, V x)
      (fun xs => ∀ x ∈ xs, V x) :=
  ⟨nofun, fun hx hxs => List.forall_mem_append.mpr ⟨hx, hxs⟩⟩

/-- A list is located if its items are. -/
theorem IsLoop.isLocated (hl : IsLoop kind a item more) (ha : a.Lifts V W)
    (hitem : ∀ tokens, OnLines finish Q tokens → (item tokens).IsLocated finish V tokens)
    (h : OnLines finish Q tokens) : (more tokens).IsLocated finish W tokens := by
  -- The induction is on the number of tokens, since an item may use any number of them.
  generalize hn : tokens.length = n
  induction n using Nat.strongRecOn generalizing tokens with
  | ind n ih =>
    rw [hl tokens]
    cases tokens with
    | nil => exact .of_faultless ha.nil 0 []
    | cons t rest =>
      dsimp only
      split
      · have hone := hitem rest h.tail
        have hothers : (more (rest.drop (item rest).used)).IsLocated finish W
            (rest.drop (item rest).used) := by
          refine ih _ ?_ (h.tail.drop _) rfl
          rw [List.length_cons] at hn
          rw [List.length_drop]
          omega
        exact ((hone.andThen hothers).as (ha.cons hone.value hothers.value)).past
      · exact .of_faultless ha.nil 0 (t :: rest)

theorem isLocated_parenthesized (hl : IsLoop kind a item more) (ha : a.Lifts V W)
    (hitem : ∀ tokens, OnLines finish Q tokens → (item tokens).IsLocated finish V tokens)
    (h : OnLines finish Q tokens) :
    (parenthesized finish a item more tokens).IsLocated finish W tokens := by
  rw [parenthesized]
  split
  · dsimp only
    split
    · have hlisted : (⟨a.nil, 1, []⟩ : Step γ).IsLocated finish W tokens :=
        .of_faultless ha.nil 1 tokens
      exact (hlisted.andThen (isLocated_expect (h.drop _) _)).as ha.nil
    · have hone := (hitem _ (h.drop 1)).past_drop
      have hothers := hl.isLocated ha hitem (h.drop ((item (tokens.drop 1)).past 1).used)
      have hlisted := (hone.andThen hothers).as (ha.cons hone.value hothers.value)
      exact (hlisted.andThen (isLocated_expect (h.drop _) _)).as hlisted.value
  · exact .of_faultless ha.nil 0 tokens

end Lists

/-! ## Expressions -/

/-- A sign stands where the expression begins. -/
theorem standsOn_signed {tokens : List Token} (h : OnLines finish Q tokens) {e : Expr}
    (he : e.StandsOn Q) : (signed (sign? tokens) e).StandsOn Q := by
  cases tokens with
  | nil => exact he
  | cons t rest =>
    unfold sign? signed
    by_cases hsign : t.kind = .plus ∨ t.kind = .minus
    · simp only [if_pos hsign]
      split
      · exact he.unary h.head "-"
      · exact he
    · simp only [if_neg hsign]
      exact he

mutual

/-- **An expression stands on the lines of its tokens.** -/
theorem isLocated_expression (tokens : List Token) (h : OnLines finish Q tokens) :
    (expression finish tokens).IsLocated finish (Expr.StandsOn Q) tokens := by
  rw [expression]
  have hfirst := isLocated_simple tokens h
  exact hfirst.andThen (isLocated_relations hfirst.value _ (h.drop _))
termination_by 5 * tokens.length + 3
decreasing_by all_goals (try simp only [List.length_drop]); omega

theorem isLocated_relations {left : Expr} (hleft : left.StandsOn Q) (tokens : List Token)
    (h : OnLines finish Q tokens) :
    (relations finish left tokens).IsLocated finish (Expr.StandsOn Q) tokens := by
  match tokens with
  | [] =>
    rw [relations]
    exact .of_faultless hleft 0 []
  | t :: rest =>
    rw [relations]
    split
    · have hright := isLocated_simple rest h.tail
      have hjoined := hleft.binary hright.value h.head t.text
      exact (hright.andThen (isLocated_relations hjoined _ (h.tail.drop _))).past
    · exact .of_faultless hleft 0 (t :: rest)
termination_by 5 * tokens.length
decreasing_by all_goals (try simp only [List.length_drop, List.length_cons]); omega

theorem isLocated_simple (tokens : List Token) (h : OnLines finish Q tokens) :
    (simple finish tokens).IsLocated finish (Expr.StandsOn Q) tokens := by
  rw [simple]
  have hfirst := (isLocated_term _ (h.drop (sign? tokens).toList.length)).past_drop
  exact hfirst.andThen (isLocated_sums (standsOn_signed h hfirst.value) _ (h.drop _))
termination_by 5 * tokens.length + 2
decreasing_by all_goals (try simp only [List.length_drop]); omega

theorem isLocated_sums {left : Expr} (hleft : left.StandsOn Q) (tokens : List Token)
    (h : OnLines finish Q tokens) :
    (sums finish left tokens).IsLocated finish (Expr.StandsOn Q) tokens := by
  match tokens with
  | [] =>
    rw [sums]
    exact .of_faultless hleft 0 []
  | t :: rest =>
    rw [sums]
    split
    · have hright := isLocated_term rest h.tail
      have hjoined := hleft.binary hright.value h.head t.text
      exact (hright.andThen (isLocated_sums hjoined _ (h.tail.drop _))).past
    · exact .of_faultless hleft 0 (t :: rest)
termination_by 5 * tokens.length
decreasing_by all_goals (try simp only [List.length_drop, List.length_cons]); omega

theorem isLocated_term (tokens : List Token) (h : OnLines finish Q tokens) :
    (term finish tokens).IsLocated finish (Expr.StandsOn Q) tokens := by
  rw [term]
  have hfirst := isLocated_factor tokens h
  exact hfirst.andThen (isLocated_products hfirst.value _ (h.drop _))
termination_by 5 * tokens.length + 1
decreasing_by all_goals (try simp only [List.length_drop]); omega

theorem isLocated_products {left : Expr} (hleft : left.StandsOn Q) (tokens : List Token)
    (h : OnLines finish Q tokens) :
    (products finish left tokens).IsLocated finish (Expr.StandsOn Q) tokens := by
  match tokens with
  | [] =>
    rw [products]
    exact .of_faultless hleft 0 []
  | t :: rest =>
    rw [products]
    split
    · have hright := isLocated_factor rest h.tail
      have hjoined := hleft.binary hright.value h.head t.text
      exact (hright.andThen (isLocated_products hjoined _ (h.tail.drop _))).past
    · exact .of_faultless hleft 0 (t :: rest)
termination_by 5 * tokens.length
decreasing_by all_goals (try simp only [List.length_drop, List.length_cons]); omega

theorem isLocated_factor (tokens : List Token) (h : OnLines finish Q tokens) :
    (factor finish tokens).IsLocated finish (Expr.StandsOn Q) tokens := by
  match tokens with
  | [] =>
    rw [factor]
    exact (isLocated_refuse .factor []).as (Expr.standsOn_placeholder _ _)
  | t :: rest =>
    rw [factor]
    split
    iterate 5 exact .of_faultless (Expr.standsOn_literal _ _ _) 1 (t :: rest)
    · split
      · have harguments := (isLocated_arguments (rest.drop 1) (h.tail.drop 1)).past_drop
        have hclosed := harguments.andThen (isLocated_expect (h.tail.drop _) .rightParen)
        exact (hclosed.as (harguments.value.call h.head t.text)).past
      · split
        · have hindex := (isLocated_expression (rest.drop 1) (h.tail.drop 1)).past_drop
          have hclosed := hindex.andThen (isLocated_expect (h.tail.drop _) .rightBracket)
          exact (hclosed.as (hindex.value.element h.head t.text)).past
        · exact .of_faultless (Expr.standsOn_identifier h.head t.text) 1 (t :: rest)
    · have hoperand := isLocated_factor rest h.tail
      exact (hoperand.as (hoperand.value.unary h.head "not")).past
    · have hinner := isLocated_expression rest h.tail
      have hclosed := hinner.andThen (isLocated_expect (h.tail.drop _) .rightParen)
      exact (hclosed.as hinner.value).past
    · -- The token is the fault, whether it is used or left.
      exact ⟨Expr.standsOn_placeholder _ _, [0], List.pairwise_singleton _ _,
        List.forall_mem_singleton.mpr (Nat.zero_le _), rfl⟩
termination_by 5 * tokens.length
decreasing_by all_goals (try simp only [List.length_drop, List.length_cons]); omega

theorem isLocated_arguments (tokens : List Token) (h : OnLines finish Q tokens) :
    (arguments finish tokens).IsLocated finish (Expr.EachStandsOn Q) tokens := by
  rw [arguments]
  split
  · exact .of_faultless .nil 0 tokens
  · have hfirst := isLocated_expression tokens h
    have hmore := isLocated_moreArguments _ (h.drop (expression finish tokens).used)
    exact (hfirst.andThen hmore).as (.cons hfirst.value hmore.value)
termination_by 5 * tokens.length + 4
decreasing_by all_goals (try simp only [List.length_drop]); omega

theorem isLocated_moreArguments (tokens : List Token) (h : OnLines finish Q tokens) :
    (moreArguments finish tokens).IsLocated finish (Expr.EachStandsOn Q)
      tokens := by
  match tokens with
  | [] =>
    rw [moreArguments]
    exact .of_faultless .nil 0 []
  | t :: rest =>
    rw [moreArguments]
    split
    · have hfirst := isLocated_expression rest h.tail
      have hmore := isLocated_moreArguments _ (h.tail.drop (expression finish rest).used)
      exact ((hfirst.andThen hmore).as (.cons hfirst.value hmore.value)).past
    · exact .of_faultless .nil 0 (t :: rest)
termination_by 5 * tokens.length
decreasing_by all_goals (try simp only [List.length_drop, List.length_cons]); omega

end

/-! ## Statements -/

/-- An assignment has the line of its name. -/
theorem isLocated_assignment {name : Token} {rest : List Token} (hname : Q name.line)
    (h : OnLines finish Q rest) :
    (assignment finish name rest).IsLocated finish (Node.StandsOn Q) rest := by
  have hindex : (if startsWith .leftBracket rest then
      let index := (expression finish (rest.drop 1)).past 1
      (index.andThen (expect finish .rightBracket (rest.drop index.used))).as index.value
      else ⟨.absent, 0, []⟩ : Step Expr).IsLocated finish (Expr.StandsOn Q) rest := by
    split
    · have hinner := (isLocated_expression _ (h.drop 1)).past_drop
      exact (hinner.andThen (isLocated_expect (h.drop _) _)).as hinner.value
    · exact .of_faultless Expr.standsOn_absent 0 rest
  rw [assignment]
  dsimp only
  generalize (if startsWith .leftBracket rest then _ else _ : Step Expr) = index at hindex ⊢
  have hbecomes := hindex.andThen (isLocated_expect (h.drop index.used) .assign)
  have hvalue := isLocated_expression _ (h.drop
    (index.andThen (expect finish .assign (rest.drop index.used))).used)
  refine (hbecomes.andThen hvalue).as ?_
  have hexpressions := hindex.value.append hvalue.value
  exact .cons (Action.standsOn_of_line hname rfl)
    (hexpressions.append (.single (Action.standsOn_of_line hname rfl)))

theorem standsOn_procedureCall {es : List Expr} (hes : Expr.EachStandsOn Q es) {line : Int}
    (hline : Q line) (name : String) : (Node.call name es line).StandsOn Q :=
  .append hes (.cons (Action.standsOn_of_lines rfl) (.single (Action.standsOn_of_line hline rfl)))

theorem isLocated_procedureCall {name : Token} {rest : List Token} (hname : Q name.line)
    (h : OnLines finish Q rest) :
    (procedureCall finish name rest).IsLocated finish (Node.StandsOn Q) rest := by
  rw [procedureCall]
  split
  · have harguments := (isLocated_arguments _ (h.drop 1)).past_drop
    have hclosed := harguments.andThen (isLocated_expect (h.drop _) .rightParen)
    exact hclosed.as (standsOn_procedureCall harguments.value hname _)
  · exact .of_faultless (standsOn_procedureCall .nil hname _) 0 rest

theorem isLocated_format {tokens : List Token} (h : OnLines finish Q tokens) :
    (format finish tokens).IsLocated finish (Expr.StandsOn Q) tokens := by
  rw [format]
  split
  · exact (isLocated_expression _ (h.drop 1)).past_drop
  · exact .of_faultless Expr.standsOn_absent 0 tokens

theorem standsOn_writeArgument {value width decimals : Expr} (hvalue : value.StandsOn Q)
    (hwidth : width.StandsOn Q) (hdecimals : decimals.StandsOn Q) :
    (WriteArgument.mk value width decimals).StandsOn Q :=
  .append (.append (.append hvalue hwidth) hdecimals) (.single (Action.standsOn_of_lines rfl))

theorem isLocated_writeArgument {tokens : List Token} (h : OnLines finish Q tokens) :
    (writeArgument finish tokens).IsLocated finish (WriteArgument.StandsOn Q) tokens := by
  have hvalue := isLocated_expression tokens h
  rw [writeArgument]
  dsimp only
  split
  · have hwidth := hvalue.andThen (isLocated_format (h.drop _))
    have hdecimals := hwidth.andThen (isLocated_format (h.drop _))
    exact hdecimals.as (standsOn_writeArgument hvalue.value hwidth.value hdecimals.value)
  · exact hvalue.as
      (standsOn_writeArgument hvalue.value Expr.standsOn_absent Expr.standsOn_absent)

theorem isLocated_writeStatement (word : Token) {rest : List Token} (h : OnLines finish Q rest) :
    (writeStatement finish word rest).IsLocated finish (Node.StandsOn Q) rest := by
  have hlisted := isLocated_parenthesized isLoop_moreWriteArguments
    (lifts_items (WriteArgument.StandsOn Q)) (fun _ => isLocated_writeArgument) h
  rw [writeStatement_eq]
  exact hlisted.as (AllSteps.flatMap hlisted.value)

/-- A place to read into has the line of its name. -/
theorem isLocated_target {tokens : List Token} (h : OnLines finish Q tokens) :
    (target finish tokens).IsLocated finish (fun ts => ∀ t ∈ ts, t.StandsOn Q) tokens := by
  have hname := isLocated_expect h .identifier
  rw [target]
  dsimp only
  split
  · exact hname.as (List.forall_mem_nil _)
  next t ht =>
    have hline : Q t.line := hname.value t ht
    split
    · have hindex := (isLocated_expression _ ((h.drop
        (expect finish .identifier tokens).used).drop 1)).past_drop
      have hclosed := hindex.andThen (isLocated_expect ((h.drop _).drop _) .rightBracket)
      refine (hname.andThen hclosed).as (List.forall_mem_singleton.mpr fun routine => ?_)
      exact .append hindex.value
        (.cons (Action.standsOn_of_lines rfl) (.single (Action.standsOn_of_line hline rfl)))
    · exact hname.as (List.forall_mem_singleton.mpr fun routine =>
        .single (Action.standsOn_of_line hline rfl))

theorem isLocated_readStatement (word : Token) {rest : List Token} (h : OnLines finish Q rest) :
    (readStatement finish word rest).IsLocated finish (Node.StandsOn Q) rest := by
  have hlisted := isLocated_parenthesized isLoop_moreTargets
    (lifts_optional (Target.StandsOn Q)) (fun _ => isLocated_target) h
  rw [readStatement_eq]
  exact hlisted.as (AllSteps.flatMap fun t ht => hlisted.value t ht word.text)

theorem isLocated_separator (tokens : List Token) :
    (separator finish tokens).IsLocated finish (fun _ => True) tokens := by
  rw [separator]
  split
  · exact .of_faultless trivial 1 tokens
  · split
    · exact .of_faultless trivial 0 tokens
    · exact isLocated_refuse .separator tokens

theorem isLocated_direction (tokens : List Token) :
    (direction finish tokens).IsLocated finish (fun _ => True) tokens := by
  rw [direction]
  split
  · exact .of_faultless trivial 1 tokens
  · split
    · exact .of_faultless trivial 1 tokens
    · exact (isLocated_refuse .direction tokens).as trivial

/-- A bound that is left out has no line of its own. -/
theorem isLocated_bound {tokens : List Token} (h : OnLines finish Q tokens) :
    (bound finish tokens).IsLocated finish (Expr.StandsOn Q) tokens := by
  rw [bound]
  split
  · exact .of_faultless Expr.standsOn_absent 0 tokens
  · exact isLocated_expression tokens h

/-- The steps of a list of statements. -/
abbrev EachStandsOn (Q : Int → Prop) (nodes : List Node) : Prop :=
  StandOn Q (Node.scripts nodes)

theorem EachStandsOn.cons {node : Node} {nodes : List Node} (h : node.StandsOn Q)
    (hs : EachStandsOn Q nodes) : EachStandsOn Q (node :: nodes) :=
  AllSteps.append h hs

/-- A condition is checked on the line of its statement. -/
theorem standsOn_condition {condition : Expr} (h : condition.StandsOn Q) {line : Int}
    (hline : Q line) (kind : Conditional) :
    StandOn Q (condition.script ++ [.condition kind line]) :=
  h.append (.single (Action.standsOn_of_line hline rfl))

theorem standsOn_bound {e : Expr} (h : e.StandsOn Q) {line : Int} (hline : Q line)
    (which : Bound) : StandOn Q (e.script ++ [.bound which line]) :=
  h.append (.single (Action.standsOn_of_line hline rfl))

/-- A loop checks its counter and both bounds on its own line. -/
theorem standsOn_forDo {start stop : Expr} {body : Node} {line : Int} (hline : Q line)
    (hstart : start.StandsOn Q) (hstop : stop.StandsOn Q) (hbody : body.StandsOn Q)
    (counter : String) (downward : Bool) :
    (Node.forDo counter start stop downward body line).StandsOn Q := by
  have hhead : StandOn Q (.counter counter line :: (start.script ++ [.bound .start line])) :=
    .cons (Action.standsOn_of_line hline rfl) (standsOn_bound hstart hline .start)
  have hbounds := hhead.append (standsOn_bound hstop hline .finish)
  have henter : StandOn Q [.enterLoop counter] := .single (Action.standsOn_of_lines rfl)
  exact ((hbounds.append henter).append hbody).append (.single (Action.standsOn_of_lines rfl))

mutual

/-- **A statement stands on the lines of its tokens**, and its faults are found one after another. -/
theorem isLocated_statement (tokens : List Token) (h : OnLines finish Q tokens) :
    (statement finish tokens).IsLocated finish (Node.StandsOn Q) tokens := by
  match tokens with
  | [] =>
    rw [statement]
    exact .of_faultless Node.standsOn_absent 0 []
  | t :: rest =>
    rw [statement]
    split
    · exact .of_faultless Node.standsOn_absent 0 (t :: rest)
    · exact isLocated_statementFrom t rest h
termination_by 3 * tokens.length
decreasing_by simp only [List.length_cons]; omega

/-- A token with which no statement begins is itself the fault. -/
theorem isLocated_statementFrom (first : Token) (rest : List Token)
    (h : OnLines finish Q (first :: rest)) :
    ((statementFrom finish first rest).past 1).IsLocated finish (Node.StandsOn Q)
      (first :: rest) := by
  rw [statementFrom]
  split
  · split
    · exact (isLocated_assignment h.head h.tail).past
    · exact (isLocated_procedureCall h.head h.tail).past
  · exact (isLocated_ifStatement h.head rest h.tail).past
  · exact (isLocated_whileStatement h.head rest h.tail).past
  · exact (isLocated_forStatement h.head rest h.tail).past
  · exact (isLocated_repeatStatement h.head rest h.tail).past
  iterate 2 exact (isLocated_writeStatement first h.tail).past
  iterate 2 exact (isLocated_readStatement first h.tail).past
  · have hinner := isLocated_block rest h.tail
    refine (hinner.as (.cons (Action.standsOn_of_lines rfl) ?_)).past
    exact hinner.value.append (.single (Action.standsOn_of_lines rfl))
  · exact ⟨Node.standsOn_absent, [0], List.pairwise_singleton _ _,
      List.forall_mem_singleton.mpr (Nat.zero_le _), rfl⟩
termination_by 3 * rest.length + 2

theorem isLocated_ifStatement {line : Int} (hline : Q line) (rest : List Token)
    (h : OnLines finish Q rest) :
    (ifStatement finish line rest).IsLocated finish (Node.StandsOn Q) rest := by
  have hcondition := isLocated_expression rest h
  have hhead := hcondition.andThen (isLocated_expect (h.drop _) (.keyword .then))
  rw [ifStatement]
  dsimp only
  generalize (expression finish rest).andThen _ = head at hhead ⊢
  generalize hthen : (if startsWith (.keyword .else) _ then (⟨.absent, 0, []⟩ : Step Node) else
    statement finish _) = thenBranch
  have hbranch : thenBranch.IsLocated finish (Node.StandsOn Q) (rest.drop head.used) := by
    rw [← hthen]
    split
    · exact .of_faultless Node.standsOn_absent 0 _
    · exact isLocated_statement _ (h.drop _)
  have hupper := hhead.andThen hbranch
  have hchecked := (standsOn_condition hcondition.value hline .ifThen).append hbranch.value
  split
  · have hother := isLocated_statement _ (h.drop ((head.andThen thenBranch).used + 1))
    have helse : ((statement finish (rest.drop ((head.andThen thenBranch).used + 1))).past
        1).IsLocated finish (Node.StandsOn Q) (rest.drop (head.andThen thenBranch).used) := by
      refine IsLocated.past_drop ?_
      rw [List.drop_drop]
      exact hother
    exact (hupper.andThen helse).as (hchecked.append hother.value)
  · exact hupper.as (hchecked.append Node.standsOn_absent)
termination_by 3 * rest.length + 1
decreasing_by all_goals (try simp only [List.length_drop]); omega

theorem isLocated_whileStatement {line : Int} (hline : Q line) (rest : List Token)
    (h : OnLines finish Q rest) :
    (whileStatement finish line rest).IsLocated finish (Node.StandsOn Q) rest := by
  rw [whileStatement]
  have hcondition := isLocated_expression rest h
  have hhead := hcondition.andThen (isLocated_expect (h.drop _) (.keyword .do))
  have hbody := hhead.andThen (isLocated_statement _ (h.drop _))
  exact hbody.as ((standsOn_condition hcondition.value hline .whileDo).append hbody.value)
termination_by 3 * rest.length + 1
decreasing_by simp only [List.length_drop]; omega

theorem isLocated_forStatement {line : Int} (hline : Q line) (rest : List Token)
    (h : OnLines finish Q rest) :
    (forStatement finish line rest).IsLocated finish (Node.StandsOn Q) rest := by
  rw [forStatement]
  have hcounter := isLocated_expect h .identifier
  have hbecomes := hcounter.andThen (isLocated_expect (h.drop _) .assign)
  have hstart := hbecomes.andThen (isLocated_expression _ (h.drop _))
  have hdirection := hstart.andThen (isLocated_direction _)
  have hbound := hdirection.andThen (isLocated_bound (h.drop _))
  have hhead := hbound.andThen (isLocated_expect (h.drop _) (.keyword .do))
  have hbody := hhead.andThen (isLocated_statement _ (h.drop _))
  exact hbody.as (standsOn_forDo hline hstart.value hbound.value hbody.value _ _)
termination_by 3 * rest.length + 1
decreasing_by simp only [List.length_drop]; omega

theorem isLocated_repeatStatement {line : Int} (hline : Q line) (rest : List Token)
    (h : OnLines finish Q rest) :
    (repeatStatement finish line rest).IsLocated finish (Node.StandsOn Q) rest := by
  rw [repeatStatement]
  have hbody := isLocated_statements rest h
  have hfoot := hbody.andThen (isLocated_expect (h.drop _) (.keyword .until))
  have hcondition := hfoot.andThen (isLocated_expression _ (h.drop _))
  have hsteps := hbody.value.append (standsOn_condition hcondition.value hline .repeatUntil)
  rw [← List.append_assoc] at hsteps
  exact hcondition.as hsteps
termination_by 3 * rest.length + 1

theorem isLocated_block (rest : List Token) (h : OnLines finish Q rest) :
    (block finish rest).IsLocated finish (EachStandsOn Q) rest := by
  rw [block]
  have hbody := isLocated_statements rest h
  exact (hbody.andThen (isLocated_expect (h.drop _) (.keyword .end))).as hbody.value
termination_by 3 * rest.length + 1

theorem isLocated_statements (tokens : List Token) (h : OnLines finish Q tokens) :
    (statements finish tokens).IsLocated finish (EachStandsOn Q) tokens := by
  match tokens with
  | [] =>
    rw [statements]
    exact .of_faultless .nil 0 []
  | t :: rest =>
    rw [statements]
    split
    · exact .of_faultless .nil 0 (t :: rest)
    · split
      · exact (isLocated_statements rest h.tail).past
      · have hfirst := isLocated_statementFrom t rest h
        have hseparated : (((statementFrom finish t rest).andThen (separator finish
            (rest.drop (statementFrom finish t rest).used))).past 1).IsLocated finish
              (fun _ => True) (t :: rest) := by
          rw [← past_andThen]
          refine hfirst.andThen ?_
          rw [past_used, drop_one_add]
          exact isLocated_separator _
        dsimp only
        generalize (statementFrom finish t rest).andThen _ = separated at hseparated ⊢
        have hmore := isLocated_statements _ (h.tail.drop separated.used)
        rw [← past_as, ← past_andThen]
        refine (hseparated.andThen (W := EachStandsOn Q) ?_).as ?_
        · rw [past_used, drop_one_add]
          exact hmore
        · split
          · exact hmore.value
          · exact .cons hfirst.value hmore.value
termination_by 3 * tokens.length
decreasing_by all_goals (try simp only [List.length_drop, List.length_cons]); omega

end

/-- What is found in a body has the lines of its statements. -/
theorem isLocated_body {tokens : List Token} (h : OnLines finish Q tokens) :
    (body finish tokens).IsLocated finish (fun b => StandOn Q b.script) tokens := by
  have hopened := isLocated_expect h (.keyword .begin)
  have hinner := hopened.andThen (isLocated_block _ (h.drop _))
  exact hinner.as hinner.value

/-! ## Declarations -/

/-- The names stand on lines with the property. -/
abbrev NamesOn (Q : Int → Prop) (names : List DeclaredName) : Prop :=
  ∀ name ∈ names, Q name.line

theorem isLocated_declaredName {tokens : List Token} (h : OnLines finish Q tokens) :
    (declaredName finish tokens).IsLocated finish (NamesOn Q) tokens := by
  have hname := isLocated_expect h .identifier
  refine hname.as fun name hmem => ?_
  obtain ⟨t, ht, rfl⟩ := List.mem_map.mp hmem
  exact hname.value t (Option.mem_toList.mp ht)

/-- Each name is declared where it stands. -/
theorem isLocated_nameList {tokens : List Token} (h : OnLines finish Q tokens) :
    (nameList finish tokens).IsLocated finish (NamesOn Q) tokens := by
  have hfirst := isLocated_declaredName h
  have hmore := isLoop_moreNames.isLocated (lifts_optional fun name : DeclaredName => Q name.line)
    (fun _ => isLocated_declaredName) (h.drop (declaredName finish tokens).used)
  exact (hfirst.andThen hmore).as (List.forall_mem_append.mpr ⟨hfirst.value, hmore.value⟩)

theorem isLocated_bounds (tokens : List Token) :
    (bounds tokens).IsLocated finish (fun _ => True) tokens :=
  .of_faultless trivial _ tokens

theorem isLocated_typeName (tokens : List Token) :
    (typeName finish tokens).IsLocated finish (fun _ => True) tokens := by
  cases tokens with
  | nil => exact (isLocated_refuse .typeName []).as trivial
  | cons t rest =>
    rw [typeName]
    split
    · dsimp only
      split
      · have hlength := (@isLocated_bounds finish (rest.drop 1)).past_drop
        exact ((hlength.andThen (isLocated_accept .rightBracket _)).as trivial).past
      · exact .of_faultless trivial 1 (t :: rest)
    · exact (isLocated_refuse .typeName (t :: rest)).as trivial

theorem isLocated_expect_any (kind : TokenKind) (tokens : List Token) :
    (expect finish kind tokens).IsLocated finish (fun _ => True) tokens := by
  have hall : OnLines finish (fun _ => True) tokens := ⟨trivial, fun _ _ => trivial⟩
  exact ⟨trivial, (isLocated_expect hall kind).places⟩

/-- A type is located, and none of its tokens gives a line to the tree. -/
theorem isLocated_typeSpec (tokens : List Token) :
    (typeSpec finish tokens).IsLocated finish (fun _ => True) tokens := by
  fun_induction typeSpec finish tokens with
  | case1 => exact isLocated_typeName []
  | case2 t rest _ opened inside closed head element ih =>
    have hopened := @isLocated_expect_any finish .leftBracket rest
    have hinside := hopened.andThen (isLocated_bounds _)
    have hclosed := hinside.andThen (isLocated_expect_any .rightBracket _)
    have hhead := hclosed.andThen (isLocated_expect_any (.keyword .of) _)
    exact ((hhead.andThen ih).as trivial).past
  | case3 t rest _ => exact isLocated_typeName (t :: rest)

theorem isLocated_equalsSign (tokens : List Token) :
    (equalsSign finish tokens).IsLocated finish (fun _ => True) tokens := by
  cases tokens with
  | nil => exact isLocated_refuse .equals []
  | cons t rest =>
    rw [equalsSign]
    split
    · exact .of_faultless trivial 1 (t :: rest)
    · exact isLocated_refuse .equals (t :: rest)

/-- The steps of the constants of a section. -/
abbrev ConstantsOn (Q : Int → Prop) (declarations : List ConstDeclaration) : Prop :=
  StandOn Q (declarations.flatMap ConstDeclaration.script)

/-- A constant without a value has no steps on lines in front of it. -/
theorem standsOn_constant {value : Expr} (hvalue : value.StandsOn Q) {line : Int} (hline : Q line)
    (name : String) : StandOn Q (ConstDeclaration.mk name value line).script := by
  refine .append ?_ (.single (Action.standsOn_of_line hline rfl))
  dsimp only
  split
  · exact .single (Action.standsOn_of_lines rfl)
  · exact hvalue

theorem isLocated_constSection {tokens : List Token} (h : OnLines finish Q tokens) :
    (constSection finish tokens).IsLocated finish (ConstantsOn Q) tokens := by
  fun_induction constSection finish tokens with
  | case1 => exact .of_faultless .nil 0 []
  | case2 name rest _ equals value closed more ih =>
    have hequals := @isLocated_equalsSign finish rest
    have hvalue := hequals.andThen (isLocated_expression _ (h.tail.drop _))
    have hclosed := hvalue.andThen (isLocated_expect (h.tail.drop _) .semicolon)
    have hmore := ih (h.tail.drop _)
    have hconstant := standsOn_constant hvalue.value h.head name.text
    refine ((hclosed.andThen hmore).as ?_).past
    exact hconstant.append hmore.value
  | case3 name rest _ => exact .of_faultless .nil 0 (name :: rest)

theorem isLocated_varDeclaration {tokens : List Token} (h : OnLines finish Q tokens) :
    (varDeclaration finish tokens).IsLocated finish (fun d => StandOn Q d.script) tokens := by
  have hnames := isLocated_nameList h
  have hcolon := hnames.andThen (isLocated_expect_any .colon _)
  refine (hcolon.andThen (isLocated_typeSpec _)).as fun action hmem => ?_
  obtain ⟨name, hname, rfl⟩ := List.mem_map.mp hmem
  exact Action.standsOn_of_line (hnames.value name hname) rfl

/-- The steps of the variables of a section. -/
abbrev VariablesOn (Q : Int → Prop) (declarations : List VarDeclaration) : Prop :=
  StandOn Q (declarations.flatMap VarDeclaration.script)

theorem isLocated_varSection {tokens : List Token} (h : OnLines finish Q tokens) :
    (varSection finish tokens).IsLocated finish (VariablesOn Q) tokens := by
  fun_induction varSection finish tokens with
  | case1 => exact .of_faultless .nil 0 []
  | case2 t rest _ one closed more ih =>
    have hone := isLocated_varDeclaration h
    have hclosed := hone.andThen (isLocated_expect_any .semicolon _)
    have hmore := ih (h.drop _)
    exact (hclosed.andThen hmore).as (hone.value.append hmore.value)
  | case3 t rest _ => exact .of_faultless .nil 0 (t :: rest)

theorem isLocated_localSections {tokens : List Token} (h : OnLines finish Q tokens) :
    (localSections finish tokens).IsLocated finish (EachStandsOn Q) tokens := by
  fun_induction localSections finish tokens with
  | case1 => exact .of_faultless .nil 0 []
  | case2 t rest _ one more ih =>
    have hone := isLocated_varSection h.tail
    have hmore := ih (h.tail.drop _)
    exact ((hone.andThen hmore).as (EachStandsOn.cons hone.value hmore.value)).past
  | case3 t rest _ _ one more ih =>
    have hone := isLocated_constSection h.tail
    have hmore := ih (h.tail.drop _)
    exact ((hone.andThen hmore).as (EachStandsOn.cons hone.value hmore.value)).past
  | case4 t rest _ _ => exact .of_faultless .nil 0 (t :: rest)

theorem isLocated_modifier (tokens : List Token) :
    (modifier tokens).IsLocated finish (fun _ => True) tokens := by
  cases tokens with
  | nil => exact .of_faultless trivial 0 []
  | cons t rest =>
    rw [modifier]
    split
    · exact .of_faultless trivial 1 (t :: rest)
    · exact .of_faultless trivial 0 (t :: rest)

/-- The parameters stand on lines with the property. -/
abbrev ParametersOn (Q : Int → Prop) (parameters : List Parameter) : Prop :=
  ∀ p ∈ parameters, Q p.line

/-- A parameter has the line of its name. -/
theorem isLocated_parameterGroup {tokens : List Token} (h : OnLines finish Q tokens) :
    (parameterGroup finish tokens).IsLocated finish (ParametersOn Q) tokens := by
  have hmodifier := @isLocated_modifier finish tokens
  have hnames := hmodifier.andThen (isLocated_nameList (h.drop _))
  have hcolon := hnames.andThen (isLocated_expect_any .colon _)
  refine (hcolon.andThen (isLocated_typeSpec _)).as fun p hmem => ?_
  obtain ⟨name, hname, rfl⟩ := List.mem_map.mp hmem
  exact hnames.value name hname

theorem isLocated_parameters {tokens : List Token} (h : OnLines finish Q tokens) :
    (parameters finish tokens).IsLocated finish (ParametersOn Q) tokens :=
  isLocated_parenthesized isLoop_moreParameters (lifts_groups fun p : Parameter => Q p.line)
    (fun _ => isLocated_parameterGroup) h

/-- What a routine has in front of its declarations stands on its line and those of its
parameters. -/
theorem standsOn_routine {routine : DeclaredRoutine} (h : Q routine.line)
    {parameters : List Parameter} (hparameters : ParametersOn Q parameters) :
    StandOn Q (routine.script parameters) := by
  have hhead : StandOn Q (parameters.map (.parameter routine.line)) := by
    intro action hmem line hline
    obtain ⟨p, hp, rfl⟩ := List.mem_map.mp hmem
    rcases List.mem_cons.mp hline with rfl | hline
    · exact h
    · obtain rfl := List.mem_singleton.mp hline
      exact hparameters p hp
  exact .append (.cons (Action.standsOn_of_line h rfl) hhead)
    (.single (Action.standsOn_of_line h rfl))

/-- A function has the line of its word. -/
theorem isLocated_functionDeclaration {line : Int} (hline : Q line) {rest : List Token}
    (h : OnLines finish Q rest) :
    (functionDeclaration finish line rest).IsLocated finish (Node.StandsOn Q) rest := by
  have hname := isLocated_expect h .identifier
  have hformals := hname.andThen (isLocated_parameters (h.drop _))
  have hcolon := hformals.andThen (isLocated_expect_any .colon _)
  have hresult := hcolon.andThen (isLocated_typeSpec _)
  have hhead := hresult.andThen (isLocated_expect_any .semicolon _)
  have hsections := hhead.andThen (isLocated_localSections (h.drop _))
  have hbody := hsections.andThen (isLocated_body (h.drop _))
  refine (hbody.andThen (isLocated_expect_any .semicolon _)).as ?_
  exact (((standsOn_routine hline hformals.value).append hsections.value).append
    hbody.value).append (.single (Action.standsOn_of_lines rfl))

theorem isLocated_procedureDeclaration {line : Int} (hline : Q line) {rest : List Token}
    (h : OnLines finish Q rest) :
    (procedureDeclaration finish line rest).IsLocated finish (Node.StandsOn Q) rest := by
  have hname := isLocated_expect h .identifier
  have hformals := hname.andThen (isLocated_parameters (h.drop _))
  have hhead := hformals.andThen (isLocated_expect_any .semicolon _)
  have hsections := hhead.andThen (isLocated_localSections (h.drop _))
  have hbody := hsections.andThen (isLocated_body (h.drop _))
  refine (hbody.andThen (isLocated_expect_any .semicolon _)).as ?_
  exact (((standsOn_routine hline hformals.value).append hsections.value).append
    hbody.value).append (.single (Action.standsOn_of_lines rfl))

/-! ## Programs -/

theorem isLocated_files (tokens : List Token) :
    (files finish tokens).IsLocated finish (fun _ => True) tokens := by
  have hall : ∀ tokens, OnLines finish (fun _ => True) tokens :=
    fun _ => ⟨trivial, fun _ _ => trivial⟩
  rw [files]
  split
  · have hfirst := (@isLocated_accept finish .identifier (tokens.drop 1)).past_drop
    have hmore := isLoop_moreFiles.isLocated (V := fun _ => True) (W := fun _ => True)
      ⟨trivial, fun _ _ => trivial⟩ (fun tokens _ => isLocated_accept .identifier tokens)
      (hall (tokens.drop ((accept .identifier (tokens.drop 1)).past 1).used))
    exact ((hfirst.andThen hmore).andThen (isLocated_expect_any .rightParen _)).as trivial
  · exact .of_faultless trivial 0 tokens

theorem isLocated_heading (tokens : List Token) :
    (heading finish tokens).IsLocated finish (fun _ => True) tokens := by
  rw [heading]
  split
  · have hname := (@isLocated_expect_any finish .identifier (tokens.drop 1)).past_drop
    have hlisted := hname.andThen (isLocated_files _)
    exact (hlisted.andThen (isLocated_expect_any .semicolon _)).as trivial
  · exact .of_faultless trivial 0 tokens

theorem isLocated_units (tokens : List Token) :
    (units tokens).IsLocated finish (fun _ => True) tokens := by
  rw [units]
  split
  · exact ((isLocated_accept .semicolon _).as trivial).past_drop
  · exact .of_faultless trivial 0 tokens

/-- All declarations stand on lines of the tokens. -/
theorem isLocated_declarations {tokens : List Token} (h : OnLines finish Q tokens) :
    (declarations finish tokens).IsLocated finish (EachStandsOn Q) tokens := by
  fun_induction declarations finish tokens with
  | case1 => exact .of_faultless .nil 0 []
  | case2 t rest _ one more ih =>
    have hone := isLocated_constSection h.tail
    have hmore := ih (h.tail.drop _)
    exact ((hone.andThen hmore).as (EachStandsOn.cons hone.value hmore.value)).past
  | case3 t rest _ count ih =>
    refine IsLocated.past_drop ?_
    rw [drop_one_add]
    exact ih (h.tail.drop _)
  | case4 t rest _ one more ih =>
    have hone := isLocated_varSection h.tail
    have hmore := ih (h.tail.drop _)
    exact ((hone.andThen hmore).as (EachStandsOn.cons hone.value hmore.value)).past
  | case5 t rest _ one more ih =>
    have hone := isLocated_functionDeclaration h.head h.tail
    have hmore := ih (h.tail.drop _)
    exact ((hone.andThen hmore).as (EachStandsOn.cons hone.value hmore.value)).past
  | case6 t rest _ one more ih =>
    have hone := isLocated_procedureDeclaration h.head h.tail
    have hmore := ih (h.tail.drop _)
    exact ((hone.andThen hmore).as (EachStandsOn.cons hone.value hmore.value)).past
  | case7 t rest => exact .of_faultless .nil 0 (t :: rest)

/-- **A program stands on the lines of its tokens, and its faults are found at one token after
another.** -/
theorem isLocated_program {tokens : List Token} (h : OnLines finish Q tokens) :
    (program finish tokens).IsLocated finish (fun p => p.toNode.StandsOn Q) tokens := by
  have hunits := (@isLocated_heading finish tokens).andThen (isLocated_units _)
  have hdeclared := hunits.andThen (isLocated_declarations (h.drop _))
  have hbody := hdeclared.andThen (isLocated_body (h.drop _))
  exact (hbody.andThen (isLocated_accept .dot _)).as (hdeclared.value.append hbody.value)

end Grammar
end PascalCheck
