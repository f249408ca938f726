import PascalCheck.Proofs.Grammar.DeclarationGrammar

/-! Trees in which nothing is missing.

What the grammar derives from tokens that are spelled is complete: every mandatory part is present,
and every name has a spelling.  Only the lenient grammar lets a `for` do without its end; where all
of these are present as well, the strict grammar derives the same tokens. -/
namespace PascalCheck

/-! ### Complete trees -/

namespace Expr

mutual

/-- The expression is there with all its parts, and its names have a spelling. -/
@[simp] def isComplete : Expr → Bool
  | absent => false
  | literal _ typeName _ => typeName != ""
  | identifier name _ => name != ""
  | call name arguments _ => name != "" && allComplete arguments
  | element name index _ => name != "" && isComplete index
  | binary op left right _ => op != "" && isComplete left && isComplete right
  | unary op operand _ => op != "" && isComplete operand
  | placeholder _ _ => false

@[simp] def allComplete : List Expr → Bool
  | [] => true
  | e :: rest => isComplete e && allComplete rest

end

end Expr

def TypeSpec.isComplete (spec : TypeSpec) : Bool :=
  spec.name != ""

def DeclaredName.isComplete (name : DeclaredName) : Bool :=
  name.name != ""

def VarDeclaration.isComplete (declaration : VarDeclaration) : Bool :=
  declaration.names != [] && declaration.names.all DeclaredName.isComplete &&
    declaration.typeSpec.isComplete

def ConstDeclaration.isComplete (declaration : ConstDeclaration) : Bool :=
  declaration.name != "" && declaration.value.isComplete

def Parameter.isComplete (parameter : Parameter) : Bool :=
  parameter.name != "" && parameter.typeSpec.isComplete && parameter.modifier != some ""

/-- A width and decimals may be absent. -/
def WriteArgument.isComplete (argument : WriteArgument) : Bool :=
  argument.value.isComplete && (argument.width.isAbsent || argument.width.isComplete) &&
    (argument.decimals.isAbsent || argument.decimals.isComplete)

def Target.isComplete (target : Target) : Bool :=
  target.toExpr.isComplete

section
variable (lenient : Bool)

mutual

/-- The declaration or statement is there with all its parts, and its names have a spelling.  A
branch, the body of a loop and the index of an assignment may be absent, and in a lenient view the
end of a `for`. -/
@[simp] def Node.isComplete : Node → Bool
  | .program name declarations body _ =>
    name != "" && Node.allComplete declarations && Body.isComplete body
  | .varSection declarations _ => declarations.all VarDeclaration.isComplete
  | .constSection declarations _ => declarations.all ConstDeclaration.isComplete
  | .function name parameters result declarations body _ =>
    name != "" && parameters.all Parameter.isComplete && result.isComplete &&
      Node.allComplete declarations && Body.isComplete body
  | .procedure name parameters declarations body _ =>
    name != "" && parameters.all Parameter.isComplete && Node.allComplete declarations &&
      Body.isComplete body
  | .block statements _ => Node.allComplete statements
  | .assignment target value index _ =>
    target != "" && value.isComplete && (index.isAbsent || index.isComplete)
  | .ifThen condition thenBranch elseBranch _ =>
    condition.isComplete && (thenBranch.isAbsent || Node.isComplete thenBranch) &&
      (elseBranch.isAbsent || Node.isComplete elseBranch)
  | .whileDo condition body _ => condition.isComplete && (body.isAbsent || Node.isComplete body)
  | .forDo counter start finish _ body _ =>
    counter != "" && start.isComplete && (lenient && finish.isAbsent || finish.isComplete) &&
      (body.isAbsent || Node.isComplete body)
  | .repeatUntil statements condition _ => Node.allComplete statements && condition.isComplete
  | .write routine arguments _ => routine != "" && arguments.all WriteArgument.isComplete
  | .read routine targets _ => routine != "" && targets.all Target.isComplete
  | .call name arguments _ => name != "" && Expr.allComplete arguments
  | .expression _ => false
  | .fragment _ => false

@[simp] def Node.allComplete : List Node → Bool
  | [] => true
  | n :: rest => Node.isComplete n && Node.allComplete rest

/-- The statements of a program or routine are there and complete. -/
@[simp] def Body.isComplete : Body → Bool
  | .missing => false
  | .block statements _ => Node.allComplete statements

end

/-- The program is there with all its parts. -/
def Program.isComplete (p : Program) : Bool :=
  p.toNode.isComplete lenient

end

namespace Grammar

/-! ### Spelled tokens -/

/-- The tokens have a spelling, up to strings that say nothing. -/
def IsSpelled (ts : List Token) : Prop :=
  ∀ t ∈ ts, t.kind ≠ .stringLiteral → t.text ≠ ""

section
variable {t : Token} {ts rs : List Token}

theorem IsSpelled.text_ne (h : IsSpelled (t :: ts)) {kind : TokenKind} (ht : t.kind = kind)
    (hk : kind ≠ .stringLiteral) : t.text ≠ "" :=
  h t (by simp) (ht ▸ hk)

theorem IsSpelled.tail (h : IsSpelled (t :: ts)) : IsSpelled ts :=
  fun u hu => h u (List.mem_cons_of_mem t hu)

theorem IsSpelled.left (h : IsSpelled (ts ++ rs)) : IsSpelled ts :=
  fun u hu => h u (List.mem_append_left rs hu)

theorem IsSpelled.right (h : IsSpelled (ts ++ rs)) : IsSpelled rs :=
  fun u hu => h u (List.mem_append_right ts hu)

end

/-! ### Derived trees are complete -/

/-- Everything in the phrase is complete. -/
def Phrase.isComplete : Phrase → Bool
  | .expr _ e => e.isComplete
  | .arguments es => Expr.allComplete es

theorem stringTypeName_ne_empty (text : String) : stringTypeName text ≠ "" := by
  unfold stringTypeName
  split <;> decide

theorem ne_stringLiteral_of_isMultiplying {kind : TokenKind} (h : isMultiplying kind = true) :
    kind ≠ .stringLiteral := by
  rintro rfl
  exact absurd h (by decide)

theorem ne_stringLiteral_of_isAdding {kind : TokenKind} (h : isAdding kind = true) :
    kind ≠ .stringLiteral := by
  rintro rfl
  exact absurd h (by decide)

/-- **Derived expressions are complete.** -/
theorem Derives.isComplete {p : Phrase} {ts : List Token} (h : Derives p ts)
    (hs : IsSpelled ts) : p.isComplete = true := by
  induction h with
  | integer _ | real _ | truth _ => rfl
  | string _ => simp [Phrase.isComplete, Expr.isComplete, stringTypeName_ne_empty]
  | name ht => simp [Phrase.isComplete, Expr.isComplete, hs.text_ne ht]
  | emptyCall hn _ _ =>
    simp [Phrase.isComplete, Expr.isComplete, Expr.allComplete, hs.text_ne hn]
  | call hn _ _ _ ih =>
    have hes : Expr.allComplete _ = true := ih hs.tail.tail.left
    simp [Phrase.isComplete, Expr.isComplete, hs.text_ne hn, hes]
  | element hn _ _ _ ih =>
    have hi : Expr.isComplete _ = true := ih hs.tail.tail.left
    simp [Phrase.isComplete, Expr.isComplete, hs.text_ne hn, hi]
  | negation _ _ ih | minus _ _ ih =>
    have he : Expr.isComplete _ = true := ih hs.tail
    simp [Phrase.isComplete, Expr.isComplete, he]
  | parentheses _ _ _ ih => exact ih hs.tail.left
  | plus _ _ ih => exact ih hs.tail
  | term _ ih | simple _ ih | expression _ ih => exact ih hs
  | product _ ho _ ihl ihr =>
    have hl : Expr.isComplete _ = true := ihl hs.left
    have hr : Expr.isComplete _ = true := ihr hs.right.tail
    have hop := hs.right.text_ne rfl (ne_stringLiteral_of_isMultiplying ho)
    simp [Phrase.isComplete, Expr.isComplete, hop, hl, hr]
  | sum _ ho _ ihl ihr =>
    have hl : Expr.isComplete _ = true := ihl hs.left
    have hr : Expr.isComplete _ = true := ihr hs.right.tail
    have hop := hs.right.text_ne rfl (ne_stringLiteral_of_isAdding ho)
    simp [Phrase.isComplete, Expr.isComplete, hop, hl, hr]
  | relation _ ho _ ihl ihr =>
    have hl : Expr.isComplete _ = true := ihl hs.left
    have hr : Expr.isComplete _ = true := ihr hs.right.tail
    simp [Phrase.isComplete, Expr.isComplete, hs.right.text_ne ho, hl, hr]
  | lastArgument _ ih =>
    have he : Expr.isComplete _ = true := ih hs
    simp [Phrase.isComplete, Expr.allComplete, he]
  | argument _ _ _ ihe ihs =>
    have he : Expr.isComplete _ = true := ihe hs.left
    have hes : Expr.allComplete _ = true := ihs hs.right.tail
    simp [Phrase.isComplete, Expr.allComplete, he, hes]

section
variable {β : Type} {item : β → List Token → Prop} {check : β → Bool}

theorem Separated.all_complete {kind : TokenKind}
    (hitem : ∀ b ts, item b ts → IsSpelled ts → check b = true) {bs : List β} {ts : List Token}
    (h : Separated kind item bs ts) (hs : IsSpelled ts) : bs.all check = true := by
  induction h with
  | single hb => simp [hitem _ _ hb hs]
  | cons hb _ _ ih =>
    simp only [List.all_cons, hitem _ _ hb hs.left, ih hs.right.tail, Bool.and_self]

theorem Sequence.all_complete (hitem : ∀ b ts, item b ts → IsSpelled ts → check b = true)
    {bs : List β} {ts : List Token} (h : Sequence item bs ts) (hs : IsSpelled ts) :
    bs.all check = true := by
  induction h with
  | nil => rfl
  | cons hb _ ih => simp only [List.all_cons, hitem _ _ hb hs.left, ih hs.right, Bool.and_self]

/-- What holds of a list with its tokens holds of it in parentheses, if it holds of none. -/
theorem Parenthesized.holds {list : List β → List Token → Prop} {check : List β → Bool}
    (hnil : check [] = true) (hlist : ∀ bs ts, list bs ts → IsSpelled ts → check bs = true)
    {bs : List β} {ts : List Token} (h : Parenthesized list bs ts) (hs : IsSpelled ts) :
    check bs = true := by
  cases h with
  | none | empty _ _ => exact hnil
  | list _ hbs _ => exact hlist _ _ hbs hs.tail.left

end

theorem DerivesWriteArgument.isComplete {a : WriteArgument} {ts : List Token}
    (h : DerivesWriteArgument a ts) (hs : IsSpelled ts) : a.isComplete = true := by
  cases h with
  | plain hv =>
    have hv : Expr.isComplete _ = true := hv.isComplete hs
    simp [WriteArgument.isComplete, hv, Expr.isAbsent]
  | width hv _ hw =>
    have hv : Expr.isComplete _ = true := hv.isComplete hs.left
    have hw : Expr.isComplete _ = true := hw.isComplete hs.right.tail
    simp [WriteArgument.isComplete, hv, hw, Expr.isAbsent]
  | decimals hv _ hw _ hd =>
    have hv : Expr.isComplete _ = true := hv.isComplete hs.left
    have hw : Expr.isComplete _ = true := hw.isComplete hs.right.tail.left
    have hd : Expr.isComplete _ = true := hd.isComplete hs.right.tail.right.tail
    simp [WriteArgument.isComplete, hv, hw, hd]

theorem DerivesTarget.isComplete {a : Target} {ts : List Token} (h : DerivesTarget a ts)
    (hs : IsSpelled ts) : a.isComplete = true := by
  cases h with
  | name ht => simp [Target.isComplete, Target.toExpr, Expr.isComplete, hs.text_ne ht]
  | element hn _ hi _ =>
    have hi : Expr.isComplete _ = true := hi.isComplete hs.tail.tail.left
    simp [Target.isComplete, Target.toExpr, Expr.isComplete, hs.text_ne hn, hi]

/-! ### Statements -/

/-- Everything in the phrase is complete; a statement may be empty. -/
def StatementPhrase.isComplete (lenient : Bool) : StatementPhrase → Bool
  | .statement n => n.isAbsent || n.isComplete lenient
  | .statements ns => Node.allComplete lenient ns

section
variable {lenient : Bool} {c : Expr} {n m : Node} {ns : List Node} {line : Int}

@[simp] theorem isComplete_absent :
    (StatementPhrase.statement .absent).isComplete lenient = true := rfl

@[simp] theorem isComplete_ifThen :
    (StatementPhrase.statement (.ifThen c n m line)).isComplete lenient =
      (c.isComplete && (StatementPhrase.statement n).isComplete lenient &&
        (StatementPhrase.statement m).isComplete lenient) := rfl

@[simp] theorem isComplete_whileDo :
    (StatementPhrase.statement (.whileDo c n line)).isComplete lenient =
      (c.isComplete && (StatementPhrase.statement n).isComplete lenient) := rfl

@[simp] theorem isComplete_forDo {counter : String} {a b : Expr} {downward : Bool} :
    (StatementPhrase.statement (.forDo counter a b downward n line)).isComplete lenient =
      (counter != "" && a.isComplete && (lenient && b.isAbsent || b.isComplete) &&
        (StatementPhrase.statement n).isComplete lenient) := rfl

@[simp] theorem isComplete_repeatUntil :
    (StatementPhrase.statement (.repeatUntil ns c line)).isComplete lenient =
      ((StatementPhrase.statements ns).isComplete lenient && c.isComplete) := rfl

@[simp] theorem isComplete_block :
    (StatementPhrase.statement (.block ns line)).isComplete lenient =
      (StatementPhrase.statements ns).isComplete lenient := rfl

/-- An empty statement leaves nothing in a list that could be incomplete. -/
@[simp] theorem isComplete_listed :
    (StatementPhrase.statements n.listed).isComplete lenient =
      (StatementPhrase.statement n).isComplete lenient := by
  cases ha : n.isAbsent <;>
    simp [StatementPhrase.isComplete, Node.listed, ha, Node.allComplete]

@[simp] theorem isComplete_append {ms : List Node} :
    (StatementPhrase.statements (ns ++ ms)).isComplete lenient =
      ((StatementPhrase.statements ns).isComplete lenient &&
        (StatementPhrase.statements ms).isComplete lenient) := by
  induction ns with
  | nil => rfl
  | cons n ns ih =>
    simp only [StatementPhrase.isComplete] at ih
    simp [StatementPhrase.isComplete, Node.allComplete, ih, Bool.and_assoc]

end

variable {lenient view : Bool}

theorem DerivesIndex.isComplete {i : Expr} {ts : List Token} (h : DerivesIndex i ts)
    (hs : IsSpelled ts) : (i.isAbsent || i.isComplete) = true := by
  cases h with
  | none => rfl
  | index _ hi _ =>
    have hi : Expr.isComplete _ = true := hi.isComplete hs.tail.left
    simp [hi]

theorem DerivesBound.isComplete {b : Expr} {ts : List Token} (h : DerivesBound lenient b ts)
    (hs : IsSpelled ts) (hv : lenient = true → view = true) :
    (view && b.isAbsent || b.isComplete) = true := by
  cases h with
  | bound hb =>
    have hb : Expr.isComplete _ = true := hb.isComplete hs
    simp [hb]
  | none hl => simp [hv hl, Expr.isAbsent]

/-- **Derived statements are complete**, in the strict view if the grammar is strict. -/
theorem DerivesStatement.isComplete {p : StatementPhrase} {ts : List Token}
    (h : DerivesStatement lenient p ts) (hs : IsSpelled ts) (hv : lenient = true → view = true) :
    p.isComplete view = true := by
  induction h with
  | empty => rfl
  | assignment hn hi _ he =>
    have hi := hi.isComplete hs.tail.left
    have he : Expr.isComplete _ = true := he.isComplete hs.tail.right.tail
    simp_all [StatementPhrase.isComplete, Node.isComplete, hs.text_ne hn]
  | call hn hes =>
    have hes : Expr.allComplete _ = true :=
      hes.holds rfl (fun _ _ hes hs => hes.isComplete hs) hs.tail
    simp [StatementPhrase.isComplete, Node.isComplete, hs.text_ne hn, hes]
  | ifThen _ hc _ _ ih =>
    have hc : Expr.isComplete _ = true := hc.isComplete hs.tail.left
    simp [hc, ih hs.tail.right.tail]
  | ifElse _ hc _ _ _ _ _ ihn ihm =>
    have hc : Expr.isComplete _ = true := hc.isComplete hs.tail.left
    simp [hc, ihn hs.tail.right.tail.left, ihm hs.tail.right.tail.right.tail]
  | whileDo _ hc _ _ ih =>
    have hc : Expr.isComplete _ = true := hc.isComplete hs.tail.left
    simp [hc, ih hs.tail.right.tail]
  | forDo _ hn _ ha _ hb _ _ ih =>
    have hname := hs.tail.text_ne hn (by decide)
    have ha : Expr.isComplete _ = true := ha.isComplete hs.tail.tail.tail.left
    have hb := hb.isComplete hs.tail.tail.tail.right.tail.left hv
    rw [isComplete_forDo, ha, hb, ih hs.tail.tail.tail.right.tail.right.tail]
    simpa using hname
  | repeatUntil _ _ _ hc ih =>
    have hc : Expr.isComplete _ = true := hc.isComplete hs.tail.right.tail
    simp [hc, ih hs.tail.left]
  | @write word _ _ hw has =>
    have hword : word.text ≠ "" := by rcases hw with hw | hw <;> exact hs.text_ne hw (by decide)
    have has := has.holds rfl (fun _ _ has hs => has.all_complete
      (fun _ _ ha hs => DerivesWriteArgument.isComplete ha hs) hs) hs.tail
    simp [StatementPhrase.isComplete, Node.isComplete, hword, has]
  | @read word _ _ hw has =>
    have hword : word.text ≠ "" := by rcases hw with hw | hw <;> exact hs.text_ne hw (by decide)
    have has := has.holds rfl (fun _ _ has hs => has.all_complete
      (fun _ _ ha hs => DerivesTarget.isComplete ha hs) hs) hs.tail
    simp [StatementPhrase.isComplete, Node.isComplete, hword, has]
  | block _ _ _ ih => simpa using ih hs.tail.left
  | lastStatement _ ih => simpa using ih hs
  | semicolon _ _ _ ihn ihns => simp [ihn hs.left, ihns hs.right.tail]

/-- The grammars derive the same complete statements. -/
theorem DerivesStatement.of_isComplete {p : StatementPhrase} {ts : List Token}
    (h : DerivesStatement lenient p ts) (hp : p.isComplete view = true) :
    DerivesStatement view p ts := by
  induction h with
  | empty => exact .empty
  | assignment hn hi hb hv => exact .assignment hn hi hb hv
  | call hn hes => exact .call hn hes
  | ifThen hw hc ht _ ih =>
    simp at hp
    exact .ifThen hw hc ht (ih hp.2)
  | ifElse hw hc ht _ hd he _ ihn ihm =>
    simp at hp
    exact .ifElse hw hc ht (ihn hp.1.2) hd he (ihm hp.2)
  | whileDo hw hc hd _ ih =>
    simp at hp
    exact .whileDo hw hc hd (ih hp.2)
  | forDo hw hn hbe ha hd hb hdo _ ih =>
    simp at hp
    cases hb with
    | bound hb => exact .forDo hw hn hbe ha hd (.bound hb) hdo (ih hp.2)
    | none _ =>
      -- An absent end is complete in the lenient view only.
      simp [Expr.isComplete] at hp
      exact .forDo hw hn hbe ha hd (.none hp.1.2.1) hdo (ih hp.2)
  | repeatUntil hw _ hu hc ih =>
    simp at hp
    exact .repeatUntil hw (ih hp.1) hu hc
  | write hw has => exact .write hw has
  | read hw has => exact .read hw has
  | block hw _ he ih => exact .block hw (ih (by simpa using hp)) he
  | lastStatement _ ih => exact .lastStatement (ih (by simpa using hp))
  | semicolon _ hs _ ihn ihns =>
    simp at hp
    exact .semicolon (ihn hp.1) hs (ihns hp.2)

/-! ### Declarations -/

theorem lower_ne_empty {text : String} (h : text ≠ "") : Text.lower text ≠ "" := by
  have hl : ∀ before cs, cs ≠ [] → Text.lowerAfter before cs ≠ [] := by
    intro before cs hcs
    cases cs with
    | nil => exact absurd rfl hcs
    | cons c rest =>
      have hc : Text.lowerChar c ≠ [] := by
        unfold Text.lowerChar
        split
        · simp
        · split <;> simp
      unfold Text.lowerAfter
      split <;> simp [hc]
  intro hempty
  refine hl [] text.toList (by simpa using h) ?_
  simpa [Text.lower] using hempty

theorem DerivesName.isComplete {n : DeclaredName} {ts : List Token} (h : DerivesName n ts)
    (hs : IsSpelled ts) : n.isComplete = true := by
  cases h with
  | name ht => simp [DeclaredName.isComplete, hs.text_ne ht]

theorem namesType_ne_stringLiteral {kind : TokenKind} (h : namesType kind = true) :
    kind ≠ .stringLiteral := by
  rintro rfl
  exact absurd h (by decide)

theorem DerivesType.isComplete {spec : TypeSpec} {ts : List Token} (h : DerivesType spec ts)
    (hs : IsSpelled ts) : spec.isComplete = true := by
  induction h with
  | name ht =>
    have hname := hs.text_ne rfl (namesType_ne_stringLiteral ht)
    simp [TypeSpec.isComplete, lower_ne_empty hname]
  | string _ _ _ _ _ => rfl
  | array _ _ _ _ _ _ ih => exact ih hs.tail.tail.right.tail.tail

theorem DerivesConstant.isComplete {c : ConstDeclaration} {ts : List Token}
    (h : DerivesConstant c ts) (hs : IsSpelled ts) : c.isComplete = true := by
  cases h with
  | constant hn _ _ he _ =>
    have he : Expr.isComplete _ = true := he.isComplete hs.tail.tail.left
    simp [ConstDeclaration.isComplete, hs.text_ne hn, he]

theorem DerivesVariables.isComplete {v : VarDeclaration} {ts : List Token}
    (h : DerivesVariables v ts) (hs : IsSpelled ts) : v.isComplete = true := by
  cases h with
  | declaration hn _ ht _ =>
    have hn := hn.all_complete (fun _ _ hn hs => DerivesName.isComplete hn hs) hs.left
    have ht := ht.isComplete hs.right.tail.left
    simp [VarDeclaration.isComplete, ht]
    simpa using hn

theorem DerivesSection.isComplete {n : Node} {ts : List Token} (h : DerivesSection n ts)
    (hs : IsSpelled ts) : n.isComplete view = true := by
  cases h with
  | vars _ hvs =>
    exact hvs.all_complete (fun _ _ hv hs => DerivesVariables.isComplete hv hs) hs.tail
  | consts _ hcs =>
    exact hcs.all_complete (fun _ _ hc hs => DerivesConstant.isComplete hc hs) hs.tail

theorem DerivesGroup.isComplete {ps : List Parameter} {ts : List Token} (h : DerivesGroup ps ts)
    (hs : IsSpelled ts) : ps.all Parameter.isComplete = true := by
  cases h with
  | @group m colon ns spec ms ts us hm hn hc ht =>
    have hn := hn.all_complete (fun _ _ hn hs => DerivesName.isComplete hn hs) hs.right.left
    have ht := ht.isComplete hs.right.right.tail
    have hm : m ≠ some "" := by
      cases hm with
      | none => simp
      | word hw =>
        have hword := hs.left
        rcases hw with hw | hw <;> simpa using hword.text_ne hw (by decide)
    simp only [List.all_eq_true] at hn
    simp only [List.all_map, List.all_eq_true]
    intro n hmem
    have hname : n.name ≠ "" := by simpa [DeclaredName.isComplete] using hn n hmem
    simp [Parameter.isComplete, ht, hm, hname]

theorem DerivesParameters.isComplete {ps : List Parameter} {ts : List Token}
    (h : DerivesParameters ps ts) (hs : IsSpelled ts) : ps.all Parameter.isComplete = true := by
  obtain ⟨groups, rfl, hg⟩ := h
  have hall : groups.all (fun g => g.all Parameter.isComplete) = true :=
    hg.holds rfl (fun _ _ hg hs => hg.all_complete
      (fun _ _ hg hs => DerivesGroup.isComplete hg hs) hs) hs
  rw [List.all_flatten]
  exact hall

theorem DerivesBody.isComplete {b : Body} {ts : List Token} (h : DerivesBody lenient b ts)
    (hs : IsSpelled ts) (hv : lenient = true → view = true) : b.isComplete view = true := by
  cases h with
  | block _ hns _ => exact hns.isComplete hs.tail.left hv

theorem DerivesBody.of_isComplete {b : Body} {ts : List Token} (h : DerivesBody lenient b ts)
    (hb : b.isComplete view = true) : DerivesBody view b ts := by
  cases h with
  | block hw hns he => exact .block hw (hns.of_isComplete hb) he

theorem allComplete_sections {ns : List Node} {ts : List Token} (h : Sequence DerivesSection ns ts)
    (hs : IsSpelled ts) : Node.allComplete view ns = true := by
  induction h with
  | nil => rfl
  | cons hn _ ih => simp [Node.allComplete, hn.isComplete hs.left, ih hs.right]

theorem DerivesRoutine.isComplete {n : Node} {ts : List Token} (h : DerivesRoutine lenient n ts)
    (hs : IsSpelled ts) (hv : lenient = true → view = true) : n.isComplete view = true := by
  cases h with
  | function _ hn hp _ hr _ hd hb _ =>
    have hname := hs.tail.text_ne hn (by decide)
    have hp := hp.isComplete hs.tail.tail.left
    have hr := hr.isComplete hs.tail.tail.right.tail.left
    have hd : Node.allComplete view _ = true :=
      allComplete_sections hd hs.tail.tail.right.tail.right.tail.left
    have hb := hb.isComplete hs.tail.tail.right.tail.right.tail.right.left hv
    rw [Node.isComplete, hp, hr, hd, hb]
    simpa using hname
  | procedure _ hn hp _ hd hb _ =>
    have hname := hs.tail.text_ne hn (by decide)
    have hp := hp.isComplete hs.tail.tail.left
    have hd : Node.allComplete view _ = true :=
      allComplete_sections hd hs.tail.tail.right.tail.left
    have hb := hb.isComplete hs.tail.tail.right.tail.right.left hv
    rw [Node.isComplete, hp, hd, hb]
    simpa using hname

theorem DerivesRoutine.of_isComplete {n : Node} {ts : List Token}
    (h : DerivesRoutine lenient n ts) (hn : n.isComplete view = true) :
    DerivesRoutine view n ts := by
  cases h with
  | function hw hname hp hc hr hs hd hb hl =>
    simp only [Node.isComplete, Bool.and_eq_true] at hn
    exact .function hw hname hp hc hr hs hd (hb.of_isComplete hn.2) hl
  | procedure hw hname hp hs hd hb hl =>
    simp only [Node.isComplete, Bool.and_eq_true] at hn
    exact .procedure hw hname hp hs hd (hb.of_isComplete hn.2) hl

theorem DerivesDeclarations.isComplete {ns : List Node} {ts : List Token}
    (h : DerivesDeclarations lenient ns ts) (hs : IsSpelled ts)
    (hv : lenient = true → view = true) : Node.allComplete view ns = true := by
  induction h with
  | nil => rfl
  | «section» hn _ ih => simp [Node.allComplete, hn.isComplete hs.left, ih hs.right]
  | routine hn _ ih => simp [Node.allComplete, hn.isComplete hs.left hv, ih hs.right]
  | types _ _ _ ih => exact ih hs.tail.right

theorem DerivesDeclarations.of_isComplete {ns : List Node} {ts : List Token}
    (h : DerivesDeclarations lenient ns ts) (hns : Node.allComplete view ns = true) :
    DerivesDeclarations view ns ts := by
  induction h with
  | nil => exact .nil
  | «section» hn _ ih =>
    simp [Node.allComplete] at hns
    exact .section hn (ih hns.2)
  | routine hn _ ih =>
    simp [Node.allComplete] at hns
    exact .routine (hn.of_isComplete hns.1) (ih hns.2)
  | types hw hin _ ih => exact .types hw hin (ih hns)

theorem DerivesHeading.ne_empty {name : String} {ts : List Token} (h : DerivesHeading name ts)
    (hs : IsSpelled ts) : name ≠ "" := by
  cases h with
  | none => decide
  | plain _ hn _ | files _ hn _ _ _ _ => exact hs.tail.text_ne hn (by decide)

/-- **Derived programs are complete.** -/
theorem DerivesProgram.isComplete {p : Program} {ts : List Token}
    (h : DerivesProgram lenient p ts) (hs : IsSpelled ts) (hv : lenient = true → view = true) :
    p.isComplete view = true := by
  cases h with
  | program hh _ hd hb _ =>
    have hname := hh.ne_empty hs.left
    have hd := hd.isComplete hs.right.right.left hv
    have hb := hb.isComplete hs.right.right.right.left hv
    simp [Program.isComplete, Program.toNode, Node.isComplete, hname, hd, hb]

/-- **The grammars derive the same complete programs.** -/
theorem DerivesProgram.of_isComplete {p : Program} {ts : List Token}
    (h : DerivesProgram lenient p ts) (hp : p.isComplete view = true) :
    DerivesProgram view p ts := by
  cases h with
  | program hh hu hd hb he =>
    simp only [Program.isComplete, Program.toNode, Node.isComplete, Bool.and_eq_true] at hp
    exact .program hh hu (hd.of_isComplete hp.1.2) (hb.of_isComplete hp.2) he

end Grammar
end PascalCheck
