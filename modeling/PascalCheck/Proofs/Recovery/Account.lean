import PascalCheck.Proofs.Grammar.DeclarationGrammar
import PascalCheck.Proofs.Recovery.Record
import PascalCheck.Proofs.Recovery.Steps

/-! # Where the type of errors comes from

On the walk over a tree that the grammar derives, unless an error is found, an expression is given
the type of errors only if it is a faulty name or has its type from one, or if it is the absent end
of a loop with a counter, which only the lenient grammar derives.  The proofs follow the derivation:
what it says of an expression is what the walk needs to know of it. -/
namespace PascalCheck

variable {faulty : String → Prop} {lenient : Bool} {catalogue : Catalogue}

/-- If the type is that of errors, the expression has it from a faulty name, or is absent where the
grammar is lenient. -/
def GivenType.IsAccounted (faulty : String → Prop) (lenient : Bool) (given : GivenType) : Prop :=
  given.ty = .error →
    lenient = true ∧ given.expression = .absent ∨ given.expression.IsFaulty faulty

namespace Recording
open Analysis (Quietly)

/-- The step is quiet, and the types that it records are accounted for if it finds no error. -/
def Accounts (faulty : String → Prop) (lenient : Bool) (condition : Prop) {α : Type}
    (m : Recording α) (property : α → Prop) : Prop :=
  Quietly faulty condition (m.withRecord) fun r =>
    property r.1 ∧ ∀ given ∈ r.2, given.IsAccounted faulty lenient

namespace Accounts
variable {α β : Type} {c c' : Prop} {m : Recording α} {P Q : α → Prop} {R : β → Prop}

theorem pure {a : α} (h : c → P a) : Accounts faulty lenient c (pure a) P :=
  Quietly.pure fun hc => ⟨h hc, fun _ hgiven => nomatch hgiven⟩

theorem lift {m : Analysis α} (h : Quietly faulty c m P) :
    Accounts faulty lenient c (m : Recording α) P :=
  Quietly.bind h fun _ => .pure fun ha => ⟨ha.2, fun _ hgiven => nomatch hgiven⟩

theorem weaken (h : Accounts faulty lenient c m P) (hp : ∀ a, c → P a → Q a) :
    Accounts faulty lenient c m Q :=
  Quietly.weaken h id fun r hc hr => ⟨hp r.1 hc hr.1, hr.2⟩

/-- What is known of the value need not be used. -/
theorem forget (h : Accounts faulty lenient c m P) :
    Accounts faulty lenient c m Analysis.anything :=
  h.weaken fun _ _ _ => trivial

theorem bind {f : α → Recording β} (h : Accounts faulty lenient c m P)
    (hf : ∀ a, Accounts faulty lenient (c ∧ P a) (f a) R) :
    Accounts faulty lenient c (m >>= f) R := by
  refine Quietly.bind h fun r => ?_
  have hrest : Quietly faulty (c ∧ P r.1 ∧ ∀ given ∈ r.2, given.IsAccounted faulty lenient)
      (f r.1).withRecord fun r' =>
        R r'.1 ∧ ∀ given ∈ r'.2, given.IsAccounted faulty lenient :=
    Quietly.weaken (hf r.1) (fun hc => ⟨hc.1, hc.2.1⟩) fun _ _ => id
  -- What was recorded before stands in front of what is recorded now.
  exact hrest.bind fun r' => .pure fun hc =>
    ⟨hc.2.1, List.forall_mem_append.mpr ⟨hc.1.2.2, hc.2.2⟩⟩

theorem ite {p : Prop} [Decidable p] {n : Recording α} (hm : Accounts faulty lenient c m P)
    (hn : Accounts faulty lenient c n P) : Accounts faulty lenient c (if p then m else n) P := by
  split
  · exact hm
  · exact hn

/-- What a step finds out about the type is what is recorded of it. -/
theorem give {m : Recording Ty} {e : Expr}
    (h : Accounts faulty lenient c m fun ty => ty = .error → e.IsFaulty faulty) :
    Accounts faulty lenient c (give e m) fun ty => ty = .error → e.IsFaulty faulty := by
  refine Quietly.bind h fun r => .pure fun hc => ⟨hc.2.1, ?_⟩
  refine List.forall_mem_append.mpr ⟨hc.2.2, fun given hgiven => ?_⟩
  obtain rfl := List.mem_singleton.mp hgiven
  exact fun herror => .inr (hc.2.1 herror)

end Accounts

/-! ## Expressions -/

variable {c : Prop}

/-- Whatever is known, the types given to the expression and its parts are accounted for, and its
own type is that of errors only if it has it from a faulty name. -/
def AccountsExpr (faulty : String → Prop) (lenient : Bool) (catalogue : Catalogue) (e : Expr) :
    Prop :=
  ∀ c, Accounts faulty lenient c (typeOf catalogue e) fun ty => ty = .error → e.IsFaulty faulty

/-- The same of all expressions in a phrase; of several, the type of the first one matters. -/
def AccountsPhrase (faulty : String → Prop) (lenient : Bool) (catalogue : Catalogue) :
    Grammar.Phrase → Prop
  | .expr _ e => AccountsExpr faulty lenient catalogue e
  | .arguments es => ∀ c, Accounts faulty lenient c (typesOf catalogue es) fun tys =>
      tys.headD .integer = .error → ∃ name ∈ Expr.headTypeNames es, faulty (Text.lower name)

theorem accountsExpr_literal {value typeName : String} {line : Int} {ty : Ty}
    (h : Ty.ofName? typeName = some ty) (hty : ty ≠ .error) :
    AccountsExpr faulty lenient catalogue (.literal value typeName line) :=
  fun _ => .give (.lift ((Analysis.quietly_literalType h hty).weaken id fun _ _ hne herror =>
    absurd herror hne))

theorem accountsExpr_binary {op : String} {l r : Expr} {line : Int}
    (hl : AccountsExpr faulty lenient catalogue l) (hr : AccountsExpr faulty lenient catalogue r) :
    AccountsExpr faulty lenient catalogue (.binary op l r line) := by
  refine fun c => .give ((hl _).bind fun lty => (hr _).bind fun rty => .lift ?_)
  refine (Analysis.quietly_binaryType op lty rty line).weaken id fun ty hknown h herror => ?_
  rcases h herror with hlty | hrty
  · obtain ⟨name, hname, hfaulty⟩ := hknown.1.2 hlty
    exact ⟨name, List.mem_append_left _ hname, hfaulty⟩
  · obtain ⟨name, hname, hfaulty⟩ := hknown.2 hrty
    exact ⟨name, List.mem_append_right _ hname, hfaulty⟩

theorem accountsExpr_unary {op : String} {e : Expr} {line : Int}
    (he : AccountsExpr faulty lenient catalogue e) :
    AccountsExpr faulty lenient catalogue (.unary op e line) :=
  fun _ => .give ((he _).bind fun ty => .lift ((Analysis.quietly_unaryType op ty line).weaken id
    fun _ hknown h herror => hknown.2 (h herror)))

theorem accountsPhrase_nil : AccountsPhrase faulty lenient catalogue (.arguments []) :=
  fun _ => .pure fun _ => nofun

theorem accountsPhrase_cons {e : Expr} {es : List Expr}
    (he : AccountsExpr faulty lenient catalogue e)
    (hes : AccountsPhrase faulty lenient catalogue (.arguments es)) :
    AccountsPhrase faulty lenient catalogue (.arguments (e :: es)) :=
  fun _ => (he _).bind fun _ => (hes _).bind fun _ => .pure fun hknown => hknown.1.2

theorem accountsExpr_call (hc : catalogue.YieldsNoError)
    {name : String} {es : List Expr} {line : Int}
    (hes : AccountsPhrase faulty lenient catalogue (.arguments es)) :
    AccountsExpr faulty lenient catalogue (.call name es line) := by
  refine fun c => .give ((hes _).bind fun tys => .lift ?_)
  refine (Analysis.quietly_callType hc name tys line).weaken id fun ty hknown h herror => ?_
  rcases h herror with hname | hhead
  · exact ⟨name, List.mem_cons_self, hname⟩
  · obtain ⟨other, hother, hfaulty⟩ := hknown.2 hhead
    exact ⟨other, List.mem_cons_of_mem _ hother, hfaulty⟩

/-- **The types that the walk gives to a derived expression and its parts are accounted for.** -/
theorem accounts_of_derives (hc : catalogue.YieldsNoError)
    {p : Grammar.Phrase} {ts : List Token} (h : Grammar.Derives p ts) :
    AccountsPhrase faulty lenient catalogue p := by
  induction h with
  | integer _ | real _ | truth _ => exact accountsExpr_literal rfl nofun
  | @string t _ =>
    unfold Grammar.stringTypeName
    split
    · exact accountsExpr_literal rfl nofun
    · exact accountsExpr_literal rfl nofun
  | @name t _ =>
    exact fun c => .give (.lift ((Analysis.quietly_nameType hc t.text t.line).weaken id
      fun _ _ h herror => ⟨t.text, List.mem_singleton_self _, h herror⟩))
  | emptyCall _ _ _ => exact accountsExpr_call hc accountsPhrase_nil
  | call _ _ _ _ ih => exact accountsExpr_call hc ih
  | @element name _ _ _ _ _ _ _ _ ih =>
    exact fun c => .give ((ih _).bind fun _ =>
      .lift ((Analysis.quietly_elementType name.text name.line).weaken id
        fun _ _ h herror => ⟨name.text, List.mem_singleton_self _, h herror⟩))
  | negation _ _ ih | minus _ _ ih => exact accountsExpr_unary ih
  | parentheses _ _ _ ih | term _ ih | simple _ ih | plus _ _ ih | expression _ ih => exact ih
  | product _ _ _ ihl ihr | sum _ _ _ ihl ihr | relation _ _ _ ihl ihr =>
    exact accountsExpr_binary ihl ihr
  | lastArgument _ ih => exact accountsPhrase_cons ih accountsPhrase_nil
  | argument _ _ _ ihe ihs => exact accountsPhrase_cons ihe ihs

end Recording
end PascalCheck
