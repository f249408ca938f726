import PascalCheck.Proofs.Walk.Script

/-! # What a reader of the text knows

The scopes of a program can be read off its text.  A name that is declared in a routine is known in
the rest of the routine, and one that is declared outside of the routines in the rest of the
program; the first declaration of a name in its region is the one that counts, and the one in the
routine hides the one outside (`Lexicon.meaning`).  A lexicon is what is known at a place of the
script; nothing but the steps in front of the place goes into it. -/
namespace PascalCheck

/-- A name that is declared, with the number of the routine declaration that it is declared in, if
any. -/
structure KnownName where
  routine : Option Nat
  name : String
  line : Int
  category : Category
  isParameter : Bool

/-- The name, in lower case, and the region are those of the declaration. -/
def KnownName.isOf (routine : Option Nat) (key : String) (known : KnownName) : Bool :=
  known.routine == routine && Text.lower known.name == key

/-- What is known at a place of a script. -/
structure Lexicon where
  /-- The first declaration of each name in each region, in order. -/
  names : List KnownName := []
  /-- The number of the routine declaration that the place belongs to, if any. -/
  routine : Option Nat := none
  /-- How many routine declarations have begun. -/
  routines : Nat := 0
  /-- How many blocks are open in the routine or the program. -/
  blocks : Nat := 0
  /-- The place belongs to an assignment to nothing, or to a constant. -/
  skipping : Bool := false
  /-- What the names mean that have been used, each time. -/
  references : List (Option Nat) := []

/-- The name that a step uses: of a variable in an expression, or of one that is read. -/
def Action.mention? : Action → Option String
  | name n _ | element n _ | read _ n _ => some n
  | _ => none

/-- What a step declares in the region, if it declares something. -/
def Action.declared? (routine : Option Nat) : Action → Option KnownName
  | .parameter line p =>
    some ⟨routine, p.name, if p.line = 0 then line else p.line, .variable, true⟩
  | .result r => if r.result.isSome then some ⟨routine, r.name, r.line, .result, false⟩ else none
  | .variable n _ => some ⟨routine, n.name, n.line, .variable, false⟩
  | .constant n line => some ⟨routine, n, line, .constant, false⟩
  | _ => none

namespace Lexicon
variable (lexicon : Lexicon)

/-- The place in `names` of what a name means: the declaration in the routine, or else the one
outside of the routines. -/
def meaning (name : String) : Option Nat :=
  (lexicon.names.findIdx? (KnownName.isOf lexicon.routine (Text.lower name))).or
    (lexicon.names.findIdx? (KnownName.isOf none (Text.lower name)))

/-- One more declaration. -/
def extend (known : KnownName) : Lexicon :=
  { lexicon with names := lexicon.names ++ [known] }

/-- A name that is declared in its region already is not declared again. -/
def declare (known : KnownName) : Lexicon :=
  if lexicon.names.any (KnownName.isOf known.routine (Text.lower known.name)) then lexicon
  else lexicon.extend known

/-- There is nothing to assign to under the name, or a constant. -/
def refuses (name : String) : Bool :=
  (lexicon.meaning name).all fun n => lexicon.names[n]?.any (·.category = .constant)

/-- What is known behind a step that is not passed over. -/
def learn : Action → Lexicon
  | .name n _ | .element n _ | .read _ n _ =>
    { lexicon with references := lexicon.references ++ [lexicon.meaning n] }
  | .target n _ => { lexicon with skipping := lexicon.refuses n }
  | .openBlock _ => { lexicon with blocks := lexicon.blocks + 1 }
  | .closeBlock => { lexicon with blocks := lexicon.blocks - 1 }
  | .enterRoutine _ =>
    { lexicon with routine := some lexicon.routines, routines := lexicon.routines + 1 }
  | .leaveRoutine => { lexicon with routine := none }
  | action => (action.declared? lexicon.routine).elim lexicon lexicon.declare

theorem names_learn (action : Action) :
    (lexicon.learn action).names =
      (action.declared? lexicon.routine).elim lexicon.names fun known =>
        (lexicon.declare known).names := by
  cases action with
  | result r =>
    show ((if r.result.isSome then _ else _ : Option KnownName).elim lexicon
      lexicon.declare).names = (if r.result.isSome then _ else _ : Option KnownName).elim _ _
    split <;> rfl
  | _ => rfl

/-- What is known behind a step. -/
def next (action : Action) : Lexicon :=
  if lexicon.skipping then { lexicon with skipping := !action.isStore } else lexicon.learn action

/-- What is known behind steps. -/
def after (actions : List Action) : Lexicon :=
  actions.foldl next lexicon

/-- A declaration changes nothing but the names. -/
theorem declared_eq (declared : Option KnownName) :
    ∃ names, declared.elim lexicon lexicon.declare = { lexicon with names } := by
  cases declared with
  | none => exact ⟨_, rfl⟩
  | some known =>
    show ∃ names, ite _ _ _ = _
    split
    · exact ⟨_, rfl⟩
    · exact ⟨_, rfl⟩

variable {lexicon} in
theorem next_of_active (h : lexicon.skipping = false) (action : Action) :
    lexicon.next action = lexicon.learn action := by
  rw [next, h, if_neg Bool.false_ne_true]

/-- What is known at a place of a script, from the steps in front of it. -/
def behind (actions : List Action) : Lexicon :=
  after {} actions

@[simp] theorem after_nil : lexicon.after [] = lexicon := rfl

@[simp] theorem after_cons (action : Action) (rest : List Action) :
    lexicon.after (action :: rest) = (lexicon.next action).after rest := rfl

@[simp] theorem after_append (actions rest : List Action) :
    lexicon.after (actions ++ rest) = (lexicon.after actions).after rest :=
  List.foldl_append

theorem behind_concat (actions : List Action) (action : Action) :
    behind (actions ++ [action]) = (behind actions).next action :=
  after_append _ _ _

end Lexicon
end PascalCheck
