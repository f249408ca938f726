import PascalCheck.Grammar.Statement
import PascalCheck.Proofs.Grammar.ExpressionGrammar
import PascalCheck.Proofs.Grammar.Repetition

/-! The grammar of statements as a relation between a statement and the tokens that write it.  An
`else` belongs to the nearest `if` that can take it, so the branch in front of an `else` is one that
takes none itself (`Node.isClosed`).

The grammar has a lenient form, in which a `for` may stand without its end; that is the one form of
statement that the reader accepts beyond the grammar. -/
namespace PascalCheck

/-- Nothing stands where an expression belongs. -/
def Expr.isAbsent : Expr → Bool
  | absent => true
  | _ => false

namespace Node

/-- No `else` can follow the statement as a part of it: it does not end, through the bodies of loops
and the last branches of conditionals, in a conditional without `else` or in an empty statement. -/
def isClosed : Node → Bool
  | absent => false
  | ifThen _ _ elseBranch _ => elseBranch.isClosed
  | whileDo _ body _ => body.isClosed
  | forDo _ _ _ _ body _ => body.isClosed
  | _ => true

/-- The statement as a list leaves it: nothing, if it is empty. -/
def listed (node : Node) : List Node :=
  if node.isAbsent then [] else [node]

end Node

namespace Grammar

/-- A value to write, its width and its decimals, with colons between them. -/
inductive DerivesWriteArgument : WriteArgument → List Token → Prop where
  | plain {v : Expr} {vs : List Token} (hv : Derives (.expr .expression v) vs) :
      DerivesWriteArgument ⟨v, .absent, .absent⟩ vs
  | width {v w : Expr} {vs ws : List Token} {colon : Token}
      (hv : Derives (.expr .expression v) vs) (hc : colon.kind = .colon)
      (hw : Derives (.expr .expression w) ws) :
      DerivesWriteArgument ⟨v, w, .absent⟩ (vs ++ colon :: ws)
  | decimals {v w d : Expr} {vs ws ds : List Token} {colon colon' : Token}
      (hv : Derives (.expr .expression v) vs) (hc : colon.kind = .colon)
      (hw : Derives (.expr .expression w) ws) (hc' : colon'.kind = .colon)
      (hd : Derives (.expr .expression d) ds) :
      DerivesWriteArgument ⟨v, w, d⟩ (vs ++ colon :: (ws ++ colon' :: ds))

/-- A variable or an element of an array to read into. -/
inductive DerivesTarget : Target → List Token → Prop where
  | name {t : Token} (ht : t.kind = .identifier) : DerivesTarget (.name t.text t.line) [t]
  | element {name opening closing : Token} {i : Expr} {ts : List Token}
      (hn : name.kind = .identifier) (ho : opening.kind = .leftBracket)
      (hi : Derives (.expr .expression i) ts) (hc : closing.kind = .rightBracket) :
      DerivesTarget (.element name.text i name.line) (name :: opening :: (ts ++ [closing]))

/-- The index of an assignment in brackets, absent for a variable. -/
inductive DerivesIndex : Expr → List Token → Prop where
  | none : DerivesIndex .absent []
  | index {opening closing : Token} {i : Expr} {ts : List Token}
      (ho : opening.kind = .leftBracket) (hi : Derives (.expr .expression i) ts)
      (hc : closing.kind = .rightBracket) : DerivesIndex i (opening :: (ts ++ [closing]))

/-- The word for the direction of a counter. -/
def directionWord (downward : Bool) : Keyword :=
  if downward then .downto else .to

/-- The value at which a counter stops, which the lenient grammar lets a loop do without. -/
inductive DerivesBound (lenient : Bool) : Expr → List Token → Prop where
  | bound {e : Expr} {ts : List Token} (he : Derives (.expr .expression e) ts) :
      DerivesBound lenient e ts
  | none (hl : lenient = true) : DerivesBound lenient .absent []

/-- What is written: a statement, or the statements of a list. -/
inductive StatementPhrase where
  | statement (node : Node)
  | statements (nodes : List Node)

/-- The grammar derives the tokens from the statements. -/
inductive DerivesStatement (lenient : Bool) : StatementPhrase → List Token → Prop where
  | empty : DerivesStatement lenient (.statement .absent) []
  | assignment {name becomes : Token} {i v : Expr} {is vs : List Token}
      (hn : name.kind = .identifier) (hi : DerivesIndex i is) (hb : becomes.kind = .assign)
      (hv : Derives (.expr .expression v) vs) :
      DerivesStatement lenient (.statement (.assignment name.text v i name.line))
        (name :: (is ++ becomes :: vs))
  | call {name : Token} {es : List Expr} {ts : List Token} (hn : name.kind = .identifier)
      (hs : Parenthesized (fun es => Derives (.arguments es)) es ts) :
      DerivesStatement lenient (.statement (.call name.text es name.line)) (name :: ts)
  | ifThen {word thenWord : Token} {c : Expr} {n : Node} {cs ns : List Token}
      (hw : word.kind = .keyword .if) (hc : Derives (.expr .expression c) cs)
      (ht : thenWord.kind = .keyword .then) (hn : DerivesStatement lenient (.statement n) ns) :
      DerivesStatement lenient (.statement (.ifThen c n .absent word.line))
        (word :: (cs ++ thenWord :: ns))
  | ifElse {word thenWord elseWord : Token} {c : Expr} {n m : Node} {cs ns ms : List Token}
      (hw : word.kind = .keyword .if) (hc : Derives (.expr .expression c) cs)
      (ht : thenWord.kind = .keyword .then) (hn : DerivesStatement lenient (.statement n) ns)
      (hd : n.isAbsent = true ∨ n.isClosed = true) (he : elseWord.kind = .keyword .else)
      (hm : DerivesStatement lenient (.statement m) ms) :
      DerivesStatement lenient (.statement (.ifThen c n m word.line))
        (word :: (cs ++ thenWord :: (ns ++ elseWord :: ms)))
  | whileDo {word doWord : Token} {c : Expr} {n : Node} {cs ns : List Token}
      (hw : word.kind = .keyword .while) (hc : Derives (.expr .expression c) cs)
      (hd : doWord.kind = .keyword .do) (hn : DerivesStatement lenient (.statement n) ns) :
      DerivesStatement lenient (.statement (.whileDo c n word.line))
        (word :: (cs ++ doWord :: ns))
  | forDo {word counter becomes direction doWord : Token} {a b : Expr} {downward : Bool}
      {n : Node} {as bs ns : List Token} (hw : word.kind = .keyword .for)
      (hn : counter.kind = .identifier) (hb : becomes.kind = .assign)
      (ha : Derives (.expr .expression a) as)
      (hd : direction.kind = .keyword (directionWord downward)) (he : DerivesBound lenient b bs)
      (hdo : doWord.kind = .keyword .do) (hbody : DerivesStatement lenient (.statement n) ns) :
      DerivesStatement lenient (.statement (.forDo counter.text a b downward n word.line))
        (word :: counter :: becomes :: (as ++ direction :: (bs ++ doWord :: ns)))
  | repeatUntil {word untilWord : Token} {ns : List Node} {c : Expr} {ts cs : List Token}
      (hw : word.kind = .keyword .repeat) (hn : DerivesStatement lenient (.statements ns) ts)
      (hu : untilWord.kind = .keyword .until) (hc : Derives (.expr .expression c) cs) :
      DerivesStatement lenient (.statement (.repeatUntil ns c word.line))
        (word :: (ts ++ untilWord :: cs))
  | write {word : Token} {as : List WriteArgument} {ts : List Token}
      (hw : word.kind = .keyword .write ∨ word.kind = .keyword .writeln)
      (has : Parenthesized (Separated .comma DerivesWriteArgument) as ts) :
      DerivesStatement lenient (.statement (.write word.text as word.line)) (word :: ts)
  | read {word : Token} {as : List Target} {ts : List Token}
      (hw : word.kind = .keyword .read ∨ word.kind = .keyword .readln)
      (has : Parenthesized (Separated .comma DerivesTarget) as ts) :
      DerivesStatement lenient (.statement (.read word.text as word.line)) (word :: ts)
  | block {word endWord : Token} {ns : List Node} {ts : List Token}
      (hw : word.kind = .keyword .begin) (hn : DerivesStatement lenient (.statements ns) ts)
      (he : endWord.kind = .keyword .end) :
      DerivesStatement lenient (.statement (.block ns word.line)) (word :: (ts ++ [endWord]))
  | lastStatement {n : Node} {ts : List Token}
      (hn : DerivesStatement lenient (.statement n) ts) :
      DerivesStatement lenient (.statements n.listed) ts
  | semicolon {n : Node} {ns : List Node} {separator : Token} {ts rs : List Token}
      (hn : DerivesStatement lenient (.statement n) ts) (hs : separator.kind = .semicolon)
      (hns : DerivesStatement lenient (.statements ns) rs) :
      DerivesStatement lenient (.statements (n.listed ++ ns)) (ts ++ separator :: rs)

end Grammar
end PascalCheck
