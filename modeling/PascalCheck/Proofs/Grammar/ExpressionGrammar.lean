import PascalCheck.Grammar.Expression
import PascalCheck.Proofs.Grammar.Lookahead

/-! The grammar of expressions as a relation between an expression and the tokens that write it.
The levels of the grammar settle which operand an operator takes; parentheses may stand around any
expression, and a plus sign in front of a term leaves no trace in the tree. -/
namespace PascalCheck
namespace Grammar

/-- The levels of expressions, from the operands that bind tightest to the loosest relation. -/
inductive Level where
  | factor | term | simple | expression
  deriving DecidableEq

/-- The brackets that make a call or an element of an array out of a name. -/
def isOpening : TokenKind → Bool
  | .leftParen | .leftBracket => true
  | _ => false

/-- The signs that may stand in front of a term. -/
def isSign : TokenKind → Bool
  | .plus | .minus => true
  | _ => false

/-- The tokens with which factors begin. -/
def beginsFactor : TokenKind → Bool
  | .integerLiteral | .realLiteral | .stringLiteral | .keyword .true | .keyword .false
  | .identifier | .keyword .not | .leftParen => true
  | _ => false

namespace Level

/-- A token of the kind goes on with a phrase of the level that stands before it. -/
def prolongs : Level → TokenKind → Bool
  | factor, kind => isOpening kind
  | term, kind => isOpening kind || isMultiplying kind
  | simple, kind => isOpening kind || isMultiplying kind || isAdding kind
  | expression, kind =>
    isOpening kind || isMultiplying kind || isAdding kind || decide (kind = .relation)

/-- A phrase of the level begins with a token of the kind; above the terms it may be a sign. -/
def begins : Level → TokenKind → Bool
  | factor, kind | term, kind => beginsFactor kind
  | simple, kind | expression, kind => beginsFactor kind || isSign kind

end Level

/-- What is written: an expression at a level, or the arguments of a call. -/
inductive Phrase where
  | expr (level : Level) (e : Expr)
  | arguments (es : List Expr)

/-- The grammar derives the tokens from the phrase. -/
inductive Derives : Phrase → List Token → Prop where
  | integer {t : Token} (ht : t.kind = .integerLiteral) :
      Derives (.expr .factor (.literal t.text "integer" t.line)) [t]
  | real {t : Token} (ht : t.kind = .realLiteral) :
      Derives (.expr .factor (.literal t.text "real" t.line)) [t]
  | string {t : Token} (ht : t.kind = .stringLiteral) :
      Derives (.expr .factor (.literal t.text (stringTypeName t.text) t.line)) [t]
  | truth {t : Token} (ht : t.kind = .keyword .true ∨ t.kind = .keyword .false) :
      Derives (.expr .factor (.literal t.text "boolean" t.line)) [t]
  | name {t : Token} (ht : t.kind = .identifier) :
      Derives (.expr .factor (.identifier t.text t.line)) [t]
  | emptyCall {name opening closing : Token} (hn : name.kind = .identifier)
      (ho : opening.kind = .leftParen) (hc : closing.kind = .rightParen) :
      Derives (.expr .factor (.call name.text [] name.line)) [name, opening, closing]
  | call {name opening closing : Token} {es : List Expr} {ts : List Token}
      (hn : name.kind = .identifier) (ho : opening.kind = .leftParen)
      (hs : Derives (.arguments es) ts) (hc : closing.kind = .rightParen) :
      Derives (.expr .factor (.call name.text es name.line)) (name :: opening :: (ts ++ [closing]))
  | element {name opening closing : Token} {i : Expr} {ts : List Token}
      (hn : name.kind = .identifier) (ho : opening.kind = .leftBracket)
      (hi : Derives (.expr .expression i) ts) (hc : closing.kind = .rightBracket) :
      Derives (.expr .factor (.element name.text i name.line))
        (name :: opening :: (ts ++ [closing]))
  | negation {word : Token} {e : Expr} {ts : List Token} (hw : word.kind = .keyword .not)
      (he : Derives (.expr .factor e) ts) :
      Derives (.expr .factor (.unary "not" e word.line)) (word :: ts)
  | parentheses {opening closing : Token} {e : Expr} {ts : List Token}
      (ho : opening.kind = .leftParen) (he : Derives (.expr .expression e) ts)
      (hc : closing.kind = .rightParen) :
      Derives (.expr .factor e) (opening :: (ts ++ [closing]))
  | term {e : Expr} {ts : List Token} (he : Derives (.expr .factor e) ts) :
      Derives (.expr .term e) ts
  | product {op : Token} {l r : Expr} {ls rs : List Token} (hl : Derives (.expr .term l) ls)
      (ho : isMultiplying op.kind = true) (hr : Derives (.expr .factor r) rs) :
      Derives (.expr .term (.binary op.text l r op.line)) (ls ++ op :: rs)
  | simple {e : Expr} {ts : List Token} (he : Derives (.expr .term e) ts) :
      Derives (.expr .simple e) ts
  | plus {sign : Token} {e : Expr} {ts : List Token} (hs : sign.kind = .plus)
      (he : Derives (.expr .term e) ts) : Derives (.expr .simple e) (sign :: ts)
  | minus {sign : Token} {e : Expr} {ts : List Token} (hs : sign.kind = .minus)
      (he : Derives (.expr .term e) ts) :
      Derives (.expr .simple (.unary "-" e sign.line)) (sign :: ts)
  | sum {op : Token} {l r : Expr} {ls rs : List Token} (hl : Derives (.expr .simple l) ls)
      (ho : isAdding op.kind = true) (hr : Derives (.expr .term r) rs) :
      Derives (.expr .simple (.binary op.text l r op.line)) (ls ++ op :: rs)
  | expression {e : Expr} {ts : List Token} (he : Derives (.expr .simple e) ts) :
      Derives (.expr .expression e) ts
  | relation {op : Token} {l r : Expr} {ls rs : List Token}
      (hl : Derives (.expr .expression l) ls) (ho : op.kind = .relation)
      (hr : Derives (.expr .simple r) rs) :
      Derives (.expr .expression (.binary op.text l r op.line)) (ls ++ op :: rs)
  | lastArgument {e : Expr} {ts : List Token} (he : Derives (.expr .expression e) ts) :
      Derives (.arguments [e]) ts
  | argument {comma : Token} {e : Expr} {es : List Expr} {ts rs : List Token}
      (he : Derives (.expr .expression e) ts) (hc : comma.kind = .comma)
      (hs : Derives (.arguments es) rs) : Derives (.arguments (e :: es)) (ts ++ comma :: rs)

/-- The level of the first expression of a phrase. -/
def Phrase.level : Phrase → Level
  | .expr level _ => level
  | .arguments _ => .expression

/-- The tokens of a phrase begin as its level does, also where further tokens follow. -/
theorem Derives.begins {p : Phrase} {ts : List Token} (h : Derives p ts) (rest : List Token) :
    p.level.begins (kindAhead (ts ++ rest)) = true := by
  induction h generalizing rest with
  | integer ht | real ht | string ht | name ht =>
    simp [Phrase.level, Level.begins, beginsFactor, ht]
  | truth ht => rcases ht with ht | ht <;> simp [Phrase.level, Level.begins, beginsFactor, ht]
  | emptyCall hn _ _ | call hn _ _ _ _ | element hn _ _ _ _ =>
    simp [Phrase.level, Level.begins, beginsFactor, hn]
  | negation hw _ _ => simp [Phrase.level, Level.begins, beginsFactor, hw]
  | parentheses ho _ _ _ => simp [Phrase.level, Level.begins, beginsFactor, ho]
  | plus hs _ _ | minus hs _ _ => simp [Phrase.level, Level.begins, isSign, hs]
  | term _ ih | expression _ ih | lastArgument _ ih => exact ih rest
  | simple _ ih =>
    have hb : beginsFactor (kindAhead (_ ++ rest)) = true := ih rest
    simp [Phrase.level, Level.begins, hb]
  | product _ _ _ ihl _ | sum _ _ _ ihl _ | relation _ _ _ ihl _ | argument _ _ _ ihl _ =>
    simp only [List.append_assoc, List.cons_append]
    exact ihl _

end Grammar
end PascalCheck
