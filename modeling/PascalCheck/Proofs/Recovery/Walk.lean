import PascalCheck.Proofs.Recovery.Account

/-! # The whole walk accounts for the type of errors

The declarations of a derived program say which names are faulty (`Typing.IsCovered`); its
statements declare nothing.  The walk goes through both along the derivation
(`Recording.accounts_program`). -/
namespace PascalCheck

variable {faulty : String → Prop} {lenient : Bool} {catalogue : Catalogue}

/-- If the typing gives the name the type of errors, the name is a faulty one. -/
def Typing.IsCovered (faulty : String → Prop) : Typing → Prop
  | (name, .typeName typeName) => Ty.resolve typeName = .error → faulty (Text.lower name)
  | (name, .value e) => e.IsFaulty faulty → faulty (Text.lower name)

/-- The names that typings give the type of errors cover them. -/
theorem isCovered_namesError {typings : List Typing} :
    ∀ typing ∈ typings, typing.IsCovered (NamesError typings)
  | (_, .typeName typeName), h => fun htype =>
    .typeName h ((Ty.resolve_eq_error_iff typeName).mp htype)
  | (_, .value _), h => fun ⟨_, hother, hfaulty⟩ => .value h hother hfaulty

namespace Recording
open Analysis (Quietly anything checkCall)

variable {c : Prop}

/-! ## Steps and their parts -/

/-- Nothing is recorded of an absent expression, where one may be absent. -/
theorem accounts_typeIfPresent {e : Expr}
    (h : e ≠ .absent → AccountsExpr faulty lenient catalogue e) :
    Accounts faulty lenient c (typeIfPresent catalogue e) anything := by
  cases e with
  | absent => exact .pure fun _ => trivial
  | _ => exact (h Expr.noConfusion c).forget

/-- A constant without a value is an integer; another one is faulty with its value. -/
theorem accounts_constantType {e : Expr} (h : AccountsExpr faulty lenient catalogue e) :
    Accounts faulty lenient c (constantType catalogue e) fun ty =>
      ty = .error → e.IsFaulty faulty := by
  cases e with
  | absent => exact .pure fun _ => nofun
  | _ => exact h c

/-- A bound is typed, and what is reported of it changes no meaning of a name. -/
theorem accounts_checkBound {e : Expr} (which : Bound) (line : Int)
    (h : Accounts faulty lenient c (typeOf catalogue e) anything) :
    Accounts faulty lenient c (checkBound catalogue which e line) anything :=
  h.bind fun _ => .ite (.pure fun _ => trivial) (.lift (Analysis.quietly_report line _))

/-- The check of a call looks up names and reports, and does nothing else. -/
theorem quietly_checkCall (name : String) (given : Nat) (line : Int) :
    Quietly faulty c (checkCall catalogue name given line) anything := by
  have hreport : ∀ {c' : Prop} (finding : Finding),
      Quietly faulty c' (Analysis.report line finding) anything :=
    Analysis.quietly_report line
  unfold checkCall
  cases catalogue.procedure? name with
  | some builtin => exact .ite (.pure fun _ => trivial) (hreport _)
  | none =>
    cases catalogue.function? name with
    | some builtin => exact .ite (.pure fun _ => trivial) (hreport _)
    | none =>
      refine (Analysis.quietly_routine? name).bind fun found => ?_
      cases found with
      | some routine => exact .ite (.pure fun _ => trivial) (hreport _)
      | none =>
        exact (Analysis.quietly_symbol? name).bind fun _ => .ite (hreport _) (hreport _)

/-- The statements of a list are walked through one after the other. -/
theorem accounts_walkAll {nodes : List Node}
    (h : ∀ node ∈ nodes, ∀ c, Accounts faulty lenient c (walk catalogue node) anything) :
    Accounts faulty lenient c (walkAll catalogue nodes) anything := by
  induction nodes generalizing c with
  | nil => exact .pure fun _ => trivial
  | cons node rest ih =>
    obtain ⟨hnode, hrest⟩ := List.forall_mem_cons.mp h
    exact (hnode _).bind fun _ => ih hrest

theorem accounts_walkFor {counter : String} {start finish : Expr} {downward : Bool} {body : Node}
    {line : Int} (hstart : ∀ c, Accounts faulty lenient c (typeOf catalogue start) anything)
    (hfinish : ∀ c, Accounts faulty lenient c (typeOf catalogue finish) anything)
    (hbody : ∀ c, Accounts faulty lenient c (walk catalogue body) anything) :
    Accounts faulty lenient c
      (walk catalogue (.forDo counter start finish downward body line)) anything := by
  have hrest : ∀ {c' : Prop}, Accounts faulty lenient c' (do
      walk catalogue body
      Analysis.unprotect (Text.lower counter)) anything :=
    (hbody _).bind fun _ => .lift (Analysis.quietly_unprotect _)
  refine (Accounts.lift (Analysis.quietly_checkCounter counter line)).bind fun _ =>
    (accounts_checkBound .start line (hstart _)).bind fun _ =>
      (accounts_checkBound .finish line (hfinish _)).bind fun _ => ?_
  exact .ite ((Accounts.lift (Analysis.quietly_protect _)).bind fun _ => hrest) hrest

theorem accounts_absent : Accounts faulty lenient c (walk catalogue .absent) anything :=
  (accounts_typeIfPresent fun hne => absurd rfl hne).bind fun _ => .pure fun _ => trivial

/-- The walk over a statement accounts for the types it gives, and so does that over each one of
several. -/
def AccountsStatement (faulty : String → Prop) (lenient : Bool) (catalogue : Catalogue) :
    Grammar.StatementPhrase → Prop
  | .statement node => ∀ c, Accounts faulty lenient c (walk catalogue node) anything
  | .statements nodes =>
    ∀ node ∈ nodes, ∀ c, Accounts faulty lenient c (walk catalogue node) anything

/-- A statement that is absent adds nothing to a list. -/
theorem accounts_listed {node : Node}
    (h : ∀ c, Accounts faulty lenient c (walk catalogue node) anything) :
    AccountsStatement faulty lenient catalogue (.statements node.listed) := by
  intro other hother
  unfold Node.listed at hother
  split at hother
  · cases hother
  · obtain rfl := List.mem_singleton.mp hother
    exact h

/-- The typings of a section are those of its variables. -/
theorem quietly_walkVarSection {declarations : List VarDeclaration}
    (hcovered : ∀ typing ∈ declarations.flatMap VarDeclaration.typings,
      typing.IsCovered faulty) :
    Quietly faulty c (Analysis.walkVarSection declarations) anything := by
  induction declarations generalizing c with
  | nil => exact .pure fun _ => trivial
  | cons d rest ih =>
    rw [List.flatMap_cons, List.forall_mem_append] at hcovered
    refine (Analysis.quietly_declareVariables fun n hn herror => ?_).bind fun _ => ih hcovered.2
    exact hcovered.1 (n.name, .typeName d.typeSpec.name) (List.mem_map_of_mem hn) herror

/-- What one of the nodes types is typed by all of them together. -/
theorem mem_allTypings {nodes : List Node} {node : Node} (h : node ∈ nodes) :
    ∀ typing ∈ node.typings, typing ∈ Node.allTypings nodes := by
  induction nodes with
  | nil => cases h
  | cons first rest ih =>
    intro typing ht
    rcases List.mem_cons.mp h with rfl | hrest
    · exact List.mem_append_left _ ht
    · exact List.mem_append_right _ (ih hrest typing ht)

section
variable (hc : catalogue.YieldsNoError)
include hc

/-! ## Expressions in statements -/

/-- An expression of the grammar accounts for its type. -/
theorem accounts_expression {e : Expr} {ts : List Token}
    (h : Grammar.Derives (.expr .expression e) ts) :
    AccountsExpr faulty lenient catalogue e :=
  accounts_of_derives hc h

theorem accounts_index {e : Expr} {ts : List Token} (h : Grammar.DerivesIndex e ts) :
    Accounts faulty lenient c (typeIfPresent catalogue e) anything := by
  refine accounts_typeIfPresent fun hne => ?_
  cases h with
  | none => exact absurd rfl hne
  | index _ hi _ => exact accounts_expression hc hi

/-- The end of the range of a counter has a type that is accounted for, also where it is absent. -/
theorem accounts_bound {e : Expr} {ts : List Token} (h : Grammar.DerivesBound lenient e ts) :
    Accounts faulty lenient c (typeOf catalogue e) anything := by
  cases h with
  | bound he => exact (accounts_expression hc he c).forget
  | none hlenient =>
    refine Quietly.pure fun _ => ⟨trivial, fun given hgiven => ?_⟩
    obtain rfl := List.mem_singleton.mp hgiven
    exact fun _ => .inl ⟨hlenient, rfl⟩

/-- The arguments of a call are typed whether or not it has parentheses. -/
theorem accounts_arguments {es : List Expr} {ts : List Token}
    (h : Grammar.Parenthesized (fun es => Grammar.Derives (.arguments es)) es ts) :
    Accounts faulty lenient c (typesOf catalogue es) anything := by
  have hes : AccountsPhrase faulty lenient catalogue (.arguments es) := by
    cases h with
    | none | empty _ _ => exact accountsPhrase_nil
    | list _ hes _ => exact accounts_of_derives hc hes
  exact (hes c).forget

/-! ## Statements -/

theorem accounts_walkAssignment {target : String} {value index : Expr} {line : Int}
    {is vs : List Token} (hi : Grammar.DerivesIndex index is)
    (hv : Grammar.Derives (.expr .expression value) vs) :
    Accounts faulty lenient c (walkAssignment catalogue target value index line) anything := by
  refine (Accounts.lift (Analysis.quietly_symbol? target)).bind fun found => ?_
  cases found with
  | none => exact .lift (Analysis.quietly_report line _)
  | some symbol =>
    refine (Accounts.lift (Analysis.quietly_checkNotCounter target line)).bind fun _ => ?_
    refine .ite (.lift (Analysis.quietly_report line _)) ?_
    refine (accounts_index hc hi).bind fun _ =>
      (accounts_expression hc hv _).bind fun ty => .lift ?_
    have hmark : ∀ {c' : Prop}, Quietly faulty c'
        (Analysis.changeTable (·.markInitialized target)) anything :=
      Analysis.quietly_markInitialized target
    exact .ite hmark (.ite ((Analysis.quietly_report line _).bind fun _ => hmark)
      ((Analysis.quietly_report line _).bind fun _ => hmark))

theorem accounts_checkCondition {e : Expr} {ts : List Token} (statement : Conditional) (line : Int)
    (h : Grammar.Derives (.expr .expression e) ts) :
    Accounts faulty lenient c (checkCondition catalogue e statement line) anything :=
  (accounts_expression hc h _).bind fun _ =>
    .ite (.pure fun _ => trivial) (.lift (Analysis.quietly_report line _))

theorem accounts_walkWrite {arguments : List WriteArgument}
    (h : ∀ a ∈ arguments, ∃ ts, Grammar.DerivesWriteArgument a ts) :
    Accounts faulty lenient c (walkWrite catalogue arguments) anything := by
  induction arguments generalizing c with
  | nil => exact .pure fun _ => trivial
  | cons a rest ih =>
    obtain ⟨⟨ts, ha⟩, hrest⟩ := List.forall_mem_cons.mp h
    have hparts : AccountsExpr faulty lenient catalogue a.value ∧
        (a.width ≠ .absent → AccountsExpr faulty lenient catalogue a.width) ∧
        (a.decimals ≠ .absent → AccountsExpr faulty lenient catalogue a.decimals) := by
      cases ha with
      | plain hv => exact ⟨accounts_expression hc hv, fun hne => absurd rfl hne,
          fun hne => absurd rfl hne⟩
      | width hv _ hw => exact ⟨accounts_expression hc hv, fun _ => accounts_expression hc hw,
          fun hne => absurd rfl hne⟩
      | decimals hv _ hw _ hd => exact ⟨accounts_expression hc hv,
          fun _ => accounts_expression hc hw, fun _ => accounts_expression hc hd⟩
    exact (hparts.1 _).bind fun _ => (accounts_typeIfPresent hparts.2.1).bind fun _ =>
      (accounts_typeIfPresent hparts.2.2).bind fun _ => ih hrest

theorem accounts_walkRead {routine : String} {targets : List Target}
    (h : ∀ t ∈ targets, ∃ ts, Grammar.DerivesTarget t ts) :
    Accounts faulty lenient c (walkRead catalogue routine targets) anything := by
  induction targets generalizing c with
  | nil => exact .pure fun _ => trivial
  | cons target rest ih =>
    obtain ⟨⟨ts, ht⟩, hrest⟩ := List.forall_mem_cons.mp h
    have hindex : Accounts faulty lenient c (walkIndex catalogue target) anything := by
      cases ht with
      | name _ => exact .pure fun _ => trivial
      | element _ _ hi _ => exact (accounts_expression hc hi c).bind fun _ => .pure fun _ => trivial
    exact hindex.bind fun _ =>
      (Accounts.lift (Analysis.quietly_storeRead _ _ _)).bind fun _ => ih hrest

theorem accounts_walkCall {name : String} {es : List Expr} {line : Int} {ts : List Token}
    (h : Grammar.Parenthesized (fun es => Grammar.Derives (.arguments es)) es ts) :
    Accounts faulty lenient c (walkCall catalogue name es line) anything :=
  (accounts_arguments hc h).bind fun _ => .lift (quietly_checkCall name es.length line)

/-- **The walk over derived statements accounts for the types it gives.** -/
theorem accounts_of_derivesStatement {p : Grammar.StatementPhrase} {ts : List Token}
    (h : Grammar.DerivesStatement lenient p ts) :
    AccountsStatement faulty lenient catalogue p := by
  induction h with
  | empty => exact fun c => accounts_absent
  | assignment _ hi _ hv => exact fun c => accounts_walkAssignment hc hi hv
  | call _ hes => exact fun c => accounts_walkCall hc hes
  | ifThen _ hcond _ _ ih =>
    exact fun c => (accounts_checkCondition hc _ _ hcond).bind fun _ => (ih _).bind fun _ =>
      accounts_absent
  | ifElse _ hcond _ _ _ _ _ ihn ihm =>
    exact fun c => (accounts_checkCondition hc _ _ hcond).bind fun _ => (ihn _).bind fun _ => ihm _
  | whileDo _ hcond _ _ ih =>
    exact fun c => (accounts_checkCondition hc _ _ hcond).bind fun _ => ih _
  | forDo _ _ _ hstart _ hfinish _ _ ih =>
    exact fun c => accounts_walkFor
      (fun c => (accounts_expression hc hstart c).forget)
      (fun _ => accounts_bound hc hfinish) ih
  | repeatUntil _ _ _ hcond ih =>
    exact fun c => (accounts_walkAll ih).bind fun _ => accounts_checkCondition hc _ _ hcond
  | write _ has => exact fun c => accounts_walkWrite hc fun a ha => has.exists_of_mem ha
  | read _ has => exact fun c => accounts_walkRead hc fun t ht => has.exists_of_mem ht
  | block _ _ _ ih =>
    exact fun c => (Accounts.lift (Analysis.quietly_openScope _)).bind fun _ =>
      (accounts_walkAll ih).bind fun _ => .lift Analysis.quietly_closeScope
  | lastStatement _ ih => exact accounts_listed ih
  | semicolon _ _ _ ihn ihns => exact List.forall_mem_append.mpr ⟨accounts_listed ihn, ihns⟩

/-! ## Declarations -/

theorem accounts_walkConstSection {declarations : List ConstDeclaration}
    (h : ∀ d ∈ declarations, ∃ ts, Grammar.DerivesConstant d ts)
    (hcovered : ∀ d ∈ declarations, d.typing.IsCovered faulty) :
    Accounts faulty lenient c (walkConstSection catalogue declarations) anything := by
  induction declarations generalizing c with
  | nil => exact .pure fun _ => trivial
  | cons d rest ih =>
    obtain ⟨⟨ts, hd⟩, hrest⟩ := List.forall_mem_cons.mp h
    obtain ⟨hcd, hcrest⟩ := List.forall_mem_cons.mp hcovered
    have hvalue : AccountsExpr faulty lenient catalogue d.value := by
      cases hd with
      | constant _ _ _ he _ => exact accounts_expression hc he
    have htail : ∀ {c' : Prop},
        Accounts faulty lenient c' (walkConstSection catalogue rest) anything :=
      ih hrest hcrest
    refine (accounts_constantType hvalue).bind fun ty => ?_
    refine (Accounts.lift (Analysis.quietly_declare _ _ _ fun hknown herror =>
      hcd (hknown.2 herror))).bind fun _ => .ite ?_ htail
    exact (Accounts.lift (Analysis.quietly_markInitialized _)).bind fun _ => htail

theorem accounts_section {node : Node} {ts : List Token} (h : Grammar.DerivesSection node ts)
    (hcovered : ∀ typing ∈ node.typings, typing.IsCovered faulty) :
    ∀ c, Accounts faulty lenient c (walk catalogue node) anything := by
  intro c
  cases h with
  | vars _ _ => exact .lift (quietly_walkVarSection hcovered)
  | consts _ hs =>
    exact accounts_walkConstSection hc (fun d hd => hs.exists_of_mem hd)
      fun d hd => hcovered d.typing (List.mem_map_of_mem hd)

theorem accounts_body {body : Body} {ts : List Token} (h : Grammar.DerivesBody lenient body ts) :
    Accounts faulty lenient c (walkBody catalogue body) anything := by
  cases h with
  | block _ hn _ => exact accounts_walkAll (accounts_of_derivesStatement hc hn)

theorem accounts_sections {nodes : List Node} {ts : List Token}
    (h : Grammar.Sequence Grammar.DerivesSection nodes ts)
    (hcovered : ∀ typing ∈ Node.allTypings nodes, typing.IsCovered faulty) :
    Accounts faulty lenient c (walkAll catalogue nodes) anything := by
  refine accounts_walkAll fun node hnode => ?_
  obtain ⟨us, hn⟩ := h.exists_of_mem hnode
  exact accounts_section hc hn fun typing ht => hcovered typing (mem_allTypings hnode typing ht)

theorem accounts_routine {node : Node} {ts : List Token}
    (h : Grammar.DerivesRoutine lenient node ts)
    (hcovered : ∀ typing ∈ node.typings, typing.IsCovered faulty) :
    ∀ c, Accounts faulty lenient c (walk catalogue node) anything := by
  intro c
  have hparameters : ∀ {parameters : List Parameter},
      (∀ typing ∈ parameters.map Parameter.typing, typing.IsCovered faulty) →
        ∀ p ∈ parameters, Ty.resolve p.typeSpec.name = .error → faulty (Text.lower p.name) :=
    fun hps p hp => hps p.typing (List.mem_map_of_mem hp)
  cases h with
  | @function _ name _ _ _ _ result _ _ _ _ _ _ _ _ _ _ _ _ hd hb _ =>
    obtain ⟨hrest, hsections⟩ := List.forall_mem_append.mp hcovered
    obtain ⟨hresult, hps⟩ := List.forall_mem_cons.mp hrest
    have hkey : some (Ty.resolve result.name) = some .error → faulty (Text.lower name.text) :=
      fun herror => hresult (Option.some.inj herror)
    refine (Accounts.lift (Analysis.quietly_openRoutine hkey (hparameters hps))).bind fun _ => ?_
    exact (accounts_sections hc hd hsections).bind fun _ => (accounts_body hc hb).bind fun _ =>
      .lift Analysis.quietly_closeScope
  | procedure _ _ _ _ hd hb _ =>
    obtain ⟨hps, hsections⟩ := List.forall_mem_append.mp hcovered
    refine (Accounts.lift (Analysis.quietly_openRoutine nofun (hparameters hps))).bind fun _ => ?_
    exact (accounts_sections hc hd hsections).bind fun _ => (accounts_body hc hb).bind fun _ =>
      .lift Analysis.quietly_closeScope

theorem accounts_declarations {nodes : List Node} {ts : List Token}
    (h : Grammar.DerivesDeclarations lenient nodes ts)
    (hcovered : ∀ typing ∈ Node.allTypings nodes, typing.IsCovered faulty) :
    Accounts faulty lenient c (walkAll catalogue nodes) anything := by
  induction h generalizing c with
  | nil => exact .pure fun _ => trivial
  | «section» hn _ ih =>
    obtain ⟨hfirst, hrest⟩ := List.forall_mem_append.mp hcovered
    exact (accounts_section hc hn hfirst _).bind fun _ => ih hrest
  | routine hn _ ih =>
    obtain ⟨hfirst, hrest⟩ := List.forall_mem_append.mp hcovered
    exact (accounts_routine hc hn hfirst _).bind fun _ => ih hrest
  | types _ _ _ ih => exact ih hcovered

/-- **The analysis of a derived program accounts for the types it gives**, if the typings in its
declarations are covered. -/
theorem accounts_program {p : Program} {ts : List Token} (h : Grammar.DerivesProgram lenient p ts)
    (hcovered : ∀ typing ∈ p.toNode.typings, typing.IsCovered faulty) :
    Accounts faulty lenient c (program catalogue p) anything := by
  cases h with
  | program _ _ hd hb _ =>
    refine Accounts.bind (P := anything) ?_ fun _ => .lift Analysis.quietly_summarize
    exact (accounts_declarations hc hd hcovered).bind fun _ => accounts_body hc hb

end

end Recording
end PascalCheck
