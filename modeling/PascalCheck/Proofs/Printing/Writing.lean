import PascalCheck.Proofs.Grammar.DeclarationReading
import PascalCheck.Proofs.Printing.Lines
import PascalCheck.Proofs.Printing.Print

/-! What the tokens of a printed tree are derived from.

The lexemes say nothing about places, so that a tree is written by many token lists; the tree that
the grammar derives from one of them is the printed one up to its lines (`IsWritten`).  The same
holds of lists of whatever kind if it holds of their items. -/
namespace PascalCheck
open Grammar

/-- The tokens with these lexemes are derived from the tree, lines aside. -/
def IsWritten {α : Type} (derives : α → List Token → Prop) (unplaced : α → α) (a : α)
    (ls : List Lexeme) : Prop :=
  ∀ ts : List Token, ts.map Token.lexeme = ls → ∃ a', unplaced a' = unplaced a ∧ derives a' ts

/-! ### Tokens with given lexemes -/

section
variable {t : Token} {ts : List Token} {ls : List Lexeme}

theorem Token.kind_of_mark {kind : TokenKind} (h : t.lexeme = .mark kind) : t.kind = kind :=
  congrArg Lexeme.kind h

theorem Token.of_name {text : String} (h : t.lexeme = .name text) :
    t.kind = .identifier ∧ t.text = text :=
  Lexeme.mk.inj h

theorem Token.of_wordOf {first second : Keyword} {text : String}
    (h : t.lexeme = .wordOf first second text) (htext : text = first.text ∨ text = second.text) :
    (t.kind = .keyword first ∨ t.kind = .keyword second) ∧ t.text = text := by
  obtain ⟨hk, ht⟩ := Lexeme.mk.inj h
  split at hk <;> simp_all [TokenKind.label]

/-- Tokens for lexemes between two marks have an opening one, a closing one, and the rest between.
-/
theorem exists_of_between {opening closing : TokenKind}
    (h : ts.map Token.lexeme = Lexeme.between opening closing ls) :
    ∃ o us c, ts = o :: (us ++ [c]) ∧ o.kind = opening ∧ us.map Token.lexeme = ls ∧
      c.kind = closing := by
  obtain ⟨o, rest, rfl, ho, h⟩ := List.map_eq_cons_iff.mp h
  obtain ⟨us, cs, rfl, hus, hcs⟩ := List.map_eq_append_iff.mp h
  obtain ⟨c, last, rfl, hc, hlast⟩ := List.map_eq_cons_iff.mp hcs
  obtain rfl := List.map_eq_nil_iff.mp hlast
  exact ⟨o, us, c, rfl, Token.kind_of_mark ho, hus, Token.kind_of_mark hc⟩

end

/-! ### Lists -/

section
variable {α : Type} {derives : α → List Token → Prop} {unplaced : α → α} {print : α → List Lexeme}
  {kind : TokenKind} {as : List α}

/-- Items that are each written are written with separators between. -/
theorem isWritten_joined (hne : as ≠ []) (h : ∀ a ∈ as, IsWritten derives unplaced a (print a)) :
    IsWritten (Separated kind derives) (List.map unplaced) as
      (Lexeme.joined kind (as.map print)) := by
  induction as with
  | nil => exact absurd rfl hne
  | cons a rest ih =>
    intro ts hts
    cases rest with
    | nil =>
      obtain ⟨a', ha, hd⟩ := h a (by simp) ts hts
      exact ⟨[a'], by simp [ha], .single hd⟩
    | cons b bs =>
      obtain ⟨us, vs, rfl, hus, hvs⟩ := List.map_eq_append_iff.mp hts
      obtain ⟨separator, rs, rfl, hs, hrs⟩ := List.map_eq_cons_iff.mp hvs
      obtain ⟨a', ha, hd⟩ := h a (by simp) us hus
      obtain ⟨bs', hbs, hds⟩ := ih (by simp) (fun b hb => h b (by simp [hb])) rs hrs
      exact ⟨a' :: bs', by simp [ha, hbs], .cons hd (Token.kind_of_mark hs) hds⟩

/-- A list in parentheses is written, and the empty list without any. -/
theorem isWritten_parenthesized (h : ∀ a ∈ as, IsWritten derives unplaced a (print a)) :
    IsWritten (Parenthesized (Separated kind derives)) (List.map unplaced) as
      (Lexeme.parenthesized kind (as.map print)) := by
  intro ts hts
  by_cases hne : as = []
  · subst hne
    obtain rfl : ts = [] := List.map_eq_nil_iff.mp hts
    exact ⟨[], rfl, .none⟩
  · rw [Lexeme.parenthesized, if_neg (by simpa using hne)] at hts
    obtain ⟨o, us, c, rfl, ho, hus, hc⟩ := exists_of_between hts
    obtain ⟨as', has, hd⟩ := isWritten_joined hne h us hus
    exact ⟨as', has, .list ho hd hc⟩

/-- Items that are each written are written one after the other. -/
theorem isWritten_sequence (h : ∀ a ∈ as, IsWritten derives unplaced a (print a)) :
    IsWritten (Sequence derives) (List.map unplaced) as (as.flatMap print) := by
  induction as with
  | nil =>
    intro ts hts
    obtain rfl : ts = [] := List.map_eq_nil_iff.mp hts
    exact ⟨[], rfl, .nil⟩
  | cons a rest ih =>
    intro ts hts
    rw [List.flatMap_cons] at hts
    obtain ⟨us, vs, rfl, hus, hvs⟩ := List.map_eq_append_iff.mp hts
    obtain ⟨a', ha, hd⟩ := h a (by simp) us hus
    obtain ⟨as', has, hds⟩ := ih (fun b hb => h b (by simp [hb])) vs hvs
    exact ⟨a' :: as', by simp [ha, has], .cons hd hds⟩

/-- What is written for one rule is written for every rule that derives as much. -/
theorem IsWritten.imp {derives' : α → List Token → Prop} {a : α} {ls : List Lexeme}
    (h : IsWritten derives unplaced a ls) (himp : ∀ a ts, derives a ts → derives' a ts) :
    IsWritten derives' unplaced a ls := by
  intro ts hts
  obtain ⟨a', ha, hd⟩ := h ts hts
  exact ⟨a', ha, himp a' ts hd⟩

end

/-! ### Expressions -/

namespace Grammar

/-- What is derived at a level is derived at every looser level. -/
theorem Derives.loosen {l l' : Level} {e : Expr} {ts : List Token} (h : Derives (.expr l e) ts)
    (hl : l.rank ≤ l'.rank) : Derives (.expr l' e) ts :=
  match l, l', hl, h with
  | .factor, .factor, _, h | .term, .term, _, h | .simple, .simple, _, h
  | .expression, .expression, _, h => h
  | .factor, .term, _, h => .term h
  | .factor, .simple, _, h => .simple (.term h)
  | .factor, .expression, _, h => .expression (.simple (.term h))
  | .term, .simple, _, h => .simple h
  | .term, .expression, _, h => .expression (.simple h)
  | .simple, .expression, _, h => .expression h

/-- Expressions between commas are the arguments of a call. -/
theorem Derives.of_separated {es : List Expr} {ts : List Token}
    (h : Separated .comma (fun e => Derives (.expr .expression e)) es ts) :
    Derives (.arguments es) ts := by
  induction h with
  | single he => exact .lastArgument he
  | cons he hs _ ih => exact .argument he hs ih

end Grammar

namespace Expr

theorem allUnplaced_eq_map (es : List Expr) : allUnplaced es = es.map unplaced := by
  induction es with
  | nil => rfl
  | cons e rest ih => exact congrArg (e.unplaced :: ·) ih

theorem printEach_eq_map (es : List Expr) : printEach es = es.map print := by
  induction es with
  | nil => rfl
  | cons e rest ih => exact congrArg (e.print :: ·) ih

/-- The lexemes write the expression at a level. -/
def IsWrittenAt (level : Level) (e : Expr) (ls : List Lexeme) : Prop :=
  IsWritten (fun e => Derives (.expr level e)) unplaced e ls

section
variable {e : Expr}

theorem IsWrittenAt.loosen {l l' : Level} {ls : List Lexeme} (h : e.IsWrittenAt l ls)
    (hl : l.rank ≤ l'.rank) : e.IsWrittenAt l' ls :=
  IsWritten.imp h fun _ _ hd => hd.loosen hl

theorem IsWrittenAt.expression {l : Level} {ls : List Lexeme} (h : e.IsWrittenAt l ls) :
    e.IsWrittenAt .expression ls :=
  h.loosen (by cases l <;> decide)

/-- Parentheses stand exactly where the level asks for them. -/
theorem IsWrittenAt.within (h : e.IsWrittenAt e.level e.print) (l : Level) :
    e.IsWrittenAt l (within l e e.print) := by
  unfold Expr.within
  split
  next hl => exact h.loosen hl
  next =>
    intro ts hts
    obtain ⟨o, us, c, rfl, ho, hus, hc⟩ := exists_of_between hts
    -- In parentheses the expression is a factor, whatever its own level is.
    obtain ⟨e', he, hd⟩ := h.expression us hus
    exact ⟨e', he, (Derives.parentheses ho hd hc).loosen (Nat.zero_le _)⟩

/-- The kind of the token of a literal is read off its value and type name. -/
theorem isWritten_literal {value typeName : String} (line : Int)
    (h : isLiteral value typeName = true) :
    (literal value typeName line).IsWrittenAt .factor [⟨literalKind value typeName, value⟩] := by
  intro ts hts
  obtain ⟨t, rest, rfl, ht, hrest⟩ := List.map_eq_cons_iff.mp hts
  obtain rfl := List.map_eq_nil_iff.mp hrest
  obtain ⟨hk, rfl⟩ := Lexeme.mk.inj ht
  unfold literalKind at hk
  split at hk
  next hi => exact ⟨_, by simp [unplaced, hi], .integer hk⟩
  next hi =>
    split at hk
    next hr => exact ⟨_, by simp [unplaced, hr], .real hk⟩
    next hr =>
      split at hk
      next hb =>
        refine ⟨_, by simp [unplaced, hb], .truth ?_⟩
        split at hk <;> simp [hk]
      next hb =>
        have hs : typeName = stringTypeName t.text := by simpa [isLiteral, hi, hr, hb] using h
        exact ⟨_, by simp [unplaced, hs], .string hk⟩

theorem isWritten_identifier (name : String) (line : Int) :
    (identifier name line).IsWrittenAt .factor (identifier name line).print := by
  intro ts hts
  obtain ⟨t, rest, rfl, ht, hrest⟩ := List.map_eq_cons_iff.mp hts
  obtain rfl := List.map_eq_nil_iff.mp hrest
  obtain ⟨hk, rfl⟩ := Token.of_name ht
  exact ⟨.identifier t.text t.line, rfl, .name hk⟩

/-- The empty list of arguments keeps its parentheses here, unlike in a statement. -/
theorem isWritten_call (name : String) {arguments : List Expr} (line : Int)
    (h : ∀ e ∈ arguments, e.IsWrittenAt .expression e.print) :
    (call name arguments line).IsWrittenAt .factor (call name arguments line).print := by
  intro ts hts
  obtain ⟨t, rest, rfl, ht, hrest⟩ := List.map_eq_cons_iff.mp hts
  obtain ⟨hk, rfl⟩ := Token.of_name ht
  obtain ⟨o, us, c, rfl, ho, hus, hc⟩ := exists_of_between hrest
  rw [printEach_eq_map] at hus
  by_cases hne : arguments = []
  · subst hne
    obtain rfl : us = [] := List.map_eq_nil_iff.mp hus
    exact ⟨_, by simp [unplaced], .emptyCall hk ho hc⟩
  · obtain ⟨es, hes, hd⟩ := isWritten_joined hne h us hus
    exact ⟨_, by simp [unplaced, allUnplaced_eq_map, hes], .call hk ho (.of_separated hd) hc⟩

theorem isWritten_element (name : String) {index : Expr} (line : Int)
    (h : index.IsWrittenAt .expression index.print) :
    (element name index line).IsWrittenAt .factor (element name index line).print := by
  intro ts hts
  obtain ⟨t, rest, rfl, ht, hrest⟩ := List.map_eq_cons_iff.mp hts
  obtain ⟨hk, rfl⟩ := Token.of_name ht
  obtain ⟨o, us, c, rfl, ho, hus, hc⟩ := exists_of_between hrest
  obtain ⟨i, hi, hd⟩ := h us hus
  exact ⟨_, by simp [unplaced, hi], .element hk ho hd hc⟩

/-- An operator that neither multiplies nor adds relates. -/
theorem operatorKind_eq_relation {op : String} (hm : ¬ isMultiplying (operatorKind op) = true)
    (ha : ¬ isAdding (operatorKind op) = true) : operatorKind op = .relation := by
  unfold operatorKind at hm ha ⊢
  split at hm <;> simp_all [isMultiplying, isAdding]

/-- An operator joins operands at its level, the right one a level tighter. -/
theorem isWritten_binary {op : String} {left right : Expr} (line : Int)
    (hl : left.IsWrittenAt left.level left.print)
    (hr : right.IsWrittenAt right.level right.print) :
    (binary op left right line).IsWrittenAt (operatorLevel op)
      (binary op left right line).print := by
  intro ts hts
  obtain ⟨us, vs, rfl, hus, hvs⟩ := List.map_eq_append_iff.mp hts
  obtain ⟨t, rs, rfl, ht, hrs⟩ := List.map_eq_cons_iff.mp hvs
  obtain ⟨l, hul, hdl⟩ := hl.within (operatorLevel op) us hus
  obtain ⟨r, hur, hdr⟩ := hr.within (operatorLevel op).tighter rs hrs
  obtain ⟨hk, rfl⟩ := Lexeme.mk.inj ht
  refine ⟨.binary t.text l r t.line, by simp [unplaced, hul, hur], ?_⟩
  -- The level of the operator settles which rule of the grammar joins the operands.
  unfold operatorLevel at hdl hdr ⊢
  rw [← hk] at hdl hdr ⊢
  split at hdl
  next hm =>
    rw [if_pos hm] at hdr ⊢
    exact .product hdl hm hdr
  next hm =>
    split at hdl
    next ha =>
      rw [if_neg hm, if_pos ha] at hdr ⊢
      exact .sum hdl ha hdr
    next ha =>
      rw [if_neg hm, if_neg ha] at hdr ⊢
      rw [hk] at hm ha
      exact .relation hdl (hk.trans (operatorKind_eq_relation hm ha)) hdr

/-- The operand of `not` is a factor and that of the sign a term. -/
theorem isWritten_unary {op : String} {operand : Expr} (line : Int)
    (hop : op = "not" ∨ op = "-") (h : operand.IsWrittenAt operand.level operand.print) :
    (unary op operand line).IsWrittenAt (unary op operand line).level
      (unary op operand line).print := by
  intro ts hts
  obtain rfl | rfl := hop
  · obtain ⟨t, rest, rfl, ht, hrest⟩ := List.map_eq_cons_iff.mp hts
    obtain ⟨e, he, hd⟩ := h.within .factor rest hrest
    exact ⟨_, by simp [unplaced, he], .negation (Token.kind_of_mark ht) hd⟩
  · obtain ⟨t, rest, rfl, ht, hrest⟩ := List.map_eq_cons_iff.mp hts
    obtain ⟨e, he, hd⟩ := h.within .term rest hrest
    exact ⟨_, by simp [unplaced, he], .minus (Token.kind_of_mark ht) hd⟩

end

mutual

/-- An expression is written at its level. -/
theorem isWritten_print : ∀ e : Expr, e.isWellFormed = true → e.IsWrittenAt e.level e.print
  | literal _ _ line, h => isWritten_literal line h
  | identifier name line, _ => isWritten_identifier name line
  | call name arguments line, h =>
    isWritten_call name line fun e he => (isWritten_printEach arguments h e he).expression
  | element name index line, h => isWritten_element name line (isWritten_print index h).expression
  | binary op left right line, h => by
    simp only [isWellFormed, Bool.and_eq_true] at h
    exact isWritten_binary line (isWritten_print left h.1.2) (isWritten_print right h.2)
  | unary op operand line, h => by
    simp only [isWellFormed, Bool.and_eq_true, Bool.or_eq_true, decide_eq_true_eq] at h
    exact isWritten_unary line h.1 (isWritten_print operand h.2)

theorem isWritten_printEach : ∀ es : List Expr, allWellFormed es = true →
    ∀ e ∈ es, e.IsWrittenAt e.level e.print
  | [], _, _, he => nomatch he
  | first :: rest, h, e, he => by
    simp only [allWellFormed, Bool.and_eq_true] at h
    rcases List.mem_cons.mp he with he | he
    · exact he ▸ isWritten_print first h.1
    · exact isWritten_printEach rest h.2 e he

end

end Expr
end PascalCheck
