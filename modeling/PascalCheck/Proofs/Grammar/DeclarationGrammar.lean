import PascalCheck.Grammar.Program
import PascalCheck.Proofs.Grammar.StatementGrammar

/-! The grammar of declarations and programs as a relation between a tree and the tokens that write
it.  Much of what is written leaves no trace: the bounds of arrays, the lengths of strings, type
definitions, units and the files in the heading of a program. -/
namespace PascalCheck
namespace Grammar

/-- Items one after another. -/
inductive Sequence {α : Type} (item : α → List Token → Prop) : List α → List Token → Prop where
  | nil : Sequence item [] []
  | cons {a : α} {as : List α} {ts rs : List Token} (ha : item a ts) (has : Sequence item as rs) :
      Sequence item (a :: as) (ts ++ rs)

theorem Sequence.exists_of_mem {α : Type} {item : α → List Token → Prop} {a : α} {as : List α}
    {ts : List Token} (h : Sequence item as ts) (ha : a ∈ as) : ∃ us, item a us := by
  induction h with
  | nil => cases ha
  | cons hitem _ ih =>
    rcases List.mem_cons.mp ha with rfl | hrest
    · exact ⟨_, hitem⟩
    · exact ih hrest

/-- A name in a list of names. -/
inductive DerivesName : DeclaredName → List Token → Prop where
  | name {t : Token} (ht : t.kind = .identifier) : DerivesName ⟨t.text, t.line⟩ [t]

/-- Tokens that a closing bracket ends. -/
def IsInside (ts : List Token) : Prop :=
  ∀ t ∈ ts, t.kind ≠ .rightBracket ∧ t.kind ≠ .endOfInput

/-- A type.  The name of a string type may have a length, and an array has bounds. -/
inductive DerivesType : TypeSpec → List Token → Prop where
  | name {t : Token} (ht : namesType t.kind = true) : DerivesType ⟨Text.lower t.text, false⟩ [t]
  | string {t opening closing : Token} {ts : List Token} (ht : namesType t.kind = true)
      (hs : Text.lower t.text = "string") (ho : opening.kind = .leftBracket) (hin : IsInside ts)
      (hc : closing.kind = .rightBracket) :
      DerivesType ⟨"string", false⟩ (t :: opening :: (ts ++ [closing]))
  | array {word opening closing ofWord : Token} {spec : TypeSpec} {bs ts : List Token}
      (hw : word.kind = .keyword .array) (ho : opening.kind = .leftBracket) (hin : IsInside bs)
      (hc : closing.kind = .rightBracket) (hof : ofWord.kind = .keyword .of)
      (hs : DerivesType spec ts) :
      DerivesType ⟨spec.name, true⟩ (word :: opening :: (bs ++ closing :: ofWord :: ts))

/-- A constant with its value. -/
inductive DerivesConstant : ConstDeclaration → List Token → Prop where
  | constant {name equals semicolon : Token} {e : Expr} {ts : List Token}
      (hn : name.kind = .identifier) (hk : equals.kind = .relation) (ht : equals.text = "=")
      (he : Derives (.expr .expression e) ts) (hs : semicolon.kind = .semicolon) :
      DerivesConstant ⟨name.text, e, name.line⟩ (name :: equals :: (ts ++ [semicolon]))

/-- Variables of one type, on the line of the first of them. -/
inductive DerivesVariables : VarDeclaration → List Token → Prop where
  | declaration {colon semicolon : Token} {n : DeclaredName} {ns : List DeclaredName}
      {spec : TypeSpec} {ts us : List Token} (hn : Separated .comma DerivesName (n :: ns) ts)
      (hc : colon.kind = .colon) (ht : DerivesType spec us) (hs : semicolon.kind = .semicolon) :
      DerivesVariables ⟨n :: ns, spec, n.line⟩ (ts ++ colon :: (us ++ [semicolon]))

/-- A section of variables or constants. -/
inductive DerivesSection : Node → List Token → Prop where
  | vars {word : Token} {vs : List VarDeclaration} {ts : List Token}
      (hw : word.kind = .keyword .var) (hs : Sequence DerivesVariables vs ts) :
      DerivesSection (.varSection vs word.line) (word :: ts)
  | consts {word : Token} {cs : List ConstDeclaration} {ts : List Token}
      (hw : word.kind = .keyword .const) (hs : Sequence DerivesConstant cs ts) :
      DerivesSection (.constSection cs word.line) (word :: ts)

/-- The word that says how parameters are passed, if there is one. -/
inductive DerivesModifier : Option String → List Token → Prop where
  | none : DerivesModifier none []
  | word {t : Token} (ht : t.kind = .keyword .var ∨ t.kind = .keyword .const) :
      DerivesModifier (some t.text) [t]

/-- Parameters of one type. -/
inductive DerivesGroup : List Parameter → List Token → Prop where
  | group {m : Option String} {colon : Token} {ns : List DeclaredName} {spec : TypeSpec}
      {ms ts us : List Token} (hm : DerivesModifier m ms)
      (hn : Separated .comma DerivesName ns ts) (hc : colon.kind = .colon)
      (ht : DerivesType spec us) :
      DerivesGroup (ns.map fun n => ⟨n.name, spec, m, n.line⟩) (ms ++ (ts ++ colon :: us))

/-- The parameters of a routine. -/
def DerivesParameters (parameters : List Parameter) (ts : List Token) : Prop :=
  ∃ groups : List (List Parameter), groups.flatten = parameters ∧
    Parenthesized (Separated .semicolon DerivesGroup) groups ts

/-- The statements of a program or a routine. -/
inductive DerivesBody (lenient : Bool) : Body → List Token → Prop where
  | block {word endWord : Token} {ns : List Node} {ts : List Token}
      (hw : word.kind = .keyword .begin) (hn : DerivesStatement lenient (.statements ns) ts)
      (he : endWord.kind = .keyword .end) :
      DerivesBody lenient (.block ns word.line) (word :: (ts ++ [endWord]))

/-- A function or a procedure. -/
inductive DerivesRoutine (lenient : Bool) : Node → List Token → Prop where
  | function {word name colon semicolon last : Token} {parameters : List Parameter}
      {result : TypeSpec} {sections : List Node} {body : Body} {ps rs ss bs : List Token}
      (hw : word.kind = .keyword .function) (hn : name.kind = .identifier)
      (hp : DerivesParameters parameters ps) (hc : colon.kind = .colon)
      (hr : DerivesType result rs) (hs : semicolon.kind = .semicolon)
      (hd : Sequence DerivesSection sections ss) (hb : DerivesBody lenient body bs)
      (hl : last.kind = .semicolon) :
      DerivesRoutine lenient (.function name.text parameters result sections body word.line)
        (word :: name :: (ps ++ colon :: (rs ++ semicolon :: (ss ++ (bs ++ [last])))))
  | procedure {word name semicolon last : Token} {parameters : List Parameter}
      {sections : List Node} {body : Body} {ps ss bs : List Token}
      (hw : word.kind = .keyword .procedure) (hn : name.kind = .identifier)
      (hp : DerivesParameters parameters ps) (hs : semicolon.kind = .semicolon)
      (hd : Sequence DerivesSection sections ss) (hb : DerivesBody lenient body bs)
      (hl : last.kind = .semicolon) :
      DerivesRoutine lenient (.procedure name.text parameters sections body word.line)
        (word :: name :: (ps ++ semicolon :: (ss ++ (bs ++ [last]))))

/-- The declarations of a program. -/
inductive DerivesDeclarations (lenient : Bool) : List Node → List Token → Prop where
  | nil : DerivesDeclarations lenient [] []
  | section {n : Node} {ns : List Node} {ts rs : List Token} (hn : DerivesSection n ts)
      (hns : DerivesDeclarations lenient ns rs) :
      DerivesDeclarations lenient (n :: ns) (ts ++ rs)
  | routine {n : Node} {ns : List Node} {ts rs : List Token} (hn : DerivesRoutine lenient n ts)
      (hns : DerivesDeclarations lenient ns rs) :
      DerivesDeclarations lenient (n :: ns) (ts ++ rs)
  | types {word : Token} {ns : List Node} {ts rs : List Token} (hw : word.kind = .keyword .type)
      (hin : ∀ t ∈ ts, endsTypeSection t.kind = false)
      (hns : DerivesDeclarations lenient ns rs) :
      DerivesDeclarations lenient ns (word :: (ts ++ rs))

/-- A file name, unless it is left out. -/
inductive DerivesFile : Bool → List Token → Prop where
  | none : DerivesFile false []
  | name {t : Token} (ht : t.kind = .identifier) : DerivesFile true [t]

/-- The heading of a program, which gives it its name. -/
inductive DerivesHeading : String → List Token → Prop where
  | none : DerivesHeading "anonymous" []
  | plain {word name semicolon : Token} (hw : word.kind = .keyword .program)
      (hn : name.kind = .identifier) (hs : semicolon.kind = .semicolon) :
      DerivesHeading name.text [word, name, semicolon]
  | files {word name opening closing semicolon : Token} {files : List Bool} {ts : List Token}
      (hw : word.kind = .keyword .program) (hn : name.kind = .identifier)
      (ho : opening.kind = .leftParen) (hf : Separated .comma DerivesFile files ts)
      (hc : closing.kind = .rightParen) (hs : semicolon.kind = .semicolon) :
      DerivesHeading name.text (word :: name :: opening :: (ts ++ [closing, semicolon]))

/-- The units that a program uses. -/
inductive DerivesUnits : List Token → Prop where
  | none : DerivesUnits []
  | units {word semicolon : Token} {ts : List Token} (hw : word.kind = .keyword .uses)
      (hin : ∀ t ∈ ts, t.kind ≠ .semicolon ∧ t.kind ≠ .endOfInput)
      (hs : semicolon.kind = .semicolon) : DerivesUnits (word :: (ts ++ [semicolon]))

/-- The dot behind a program, which may be left out. -/
inductive DerivesDot : List Token → Prop where
  | none : DerivesDot []
  | dot {t : Token} (ht : t.kind = .dot) : DerivesDot [t]

/-- The line on which tokens begin. -/
def firstLine : List Token → Int
  | [] => 0
  | t :: _ => t.line

/-- A program. -/
inductive DerivesProgram (lenient : Bool) : Program → List Token → Prop where
  | program {name : String} {declarations : List Node} {body : Body} {hs us ds bs es : List Token}
      (hh : DerivesHeading name hs) (hu : DerivesUnits us)
      (hd : DerivesDeclarations lenient declarations ds) (hb : DerivesBody lenient body bs)
      (he : DerivesDot es) :
      DerivesProgram lenient
        ⟨name, declarations, body, firstLine (hs ++ (us ++ (ds ++ (bs ++ es))))⟩
        (hs ++ (us ++ (ds ++ (bs ++ es))))

end Grammar
end PascalCheck
