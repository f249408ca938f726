import PascalCheck.Grammar.Fault

/-! Steps of reading. A step looks at the tokens that are left, uses some of them from the front, and
tells what it read and which faults it found. What is left after a step is what it did not use. -/
namespace PascalCheck

/-- The mark at the end of the tokens, which is never used up. -/
structure EndMark where
  text : String
  start : Nat
  line : Int
  column : Int
  deriving DecidableEq

namespace EndMark

/-- The mark as a token. -/
def token (finish : EndMark) : Token :=
  ⟨.endOfInput, finish.text, finish.start, finish.line, finish.column⟩

end EndMark

/-- What a step read, how many tokens it used, and the faults it found, in order. -/
structure Step (α : Type) where
  value : α
  used : Nat := 0
  faults : List GrammarFault := []

namespace Step
variable {α β : Type}

/-- One step and then another on what the first left; the second one's value. -/
def andThen (first : Step α) (second : Step β) : Step β :=
  ⟨second.value, first.used + second.used, first.faults ++ second.faults⟩

/-- A step after tokens that are used without one. -/
def past (count : Nat) (step : Step α) : Step α :=
  ⟨step.value, count + step.used, step.faults⟩

/-- The step with another value in place of its own. -/
def as (step : Step α) (value : β) : Step β :=
  ⟨value, step.used, step.faults⟩

@[simp] theorem andThen_value (a : Step α) (b : Step β) : (a.andThen b).value = b.value := rfl
@[simp] theorem andThen_used (a : Step α) (b : Step β) : (a.andThen b).used = a.used + b.used := rfl
@[simp] theorem andThen_faults (a : Step α) (b : Step β) :
    (a.andThen b).faults = a.faults ++ b.faults := rfl
@[simp] theorem past_value (n : Nat) (a : Step α) : (a.past n).value = a.value := rfl
@[simp] theorem past_used (n : Nat) (a : Step α) : (a.past n).used = n + a.used := rfl
@[simp] theorem past_faults (n : Nat) (a : Step α) : (a.past n).faults = a.faults := rfl
@[simp] theorem as_value (a : Step α) (b : β) : (a.as b).value = b := rfl
@[simp] theorem as_used (a : Step α) (b : β) : (a.as b).used = a.used := rfl
@[simp] theorem as_faults (a : Step α) (b : β) : (a.as b).faults = a.faults := rfl

end Step

namespace Grammar

/-- The token that comes next. -/
def next (finish : EndMark) (tokens : List Token) : Token :=
  tokens.headD finish.token

/-- The next token is of the kind. -/
def startsWith (kind : TokenKind) : List Token → Bool
  | [] => kind = .endOfInput
  | t :: _ => t.kind = kind

/-- The fault of the next token. -/
def refuse (finish : EndMark) (demand : Demand) (tokens : List Token) : Step Unit :=
  ⟨(), 0, [⟨demand, next finish tokens⟩]⟩

/-- Uses the next token if it is of the kind, and tells whether it was. -/
def accept (kind : TokenKind) : List Token → Step Bool
  | [] => ⟨false, 0, []⟩
  | t :: _ => if t.kind = kind then ⟨true, 1, []⟩ else ⟨false, 0, []⟩

/-- Uses the next token if it is of the kind; at any other it finds a fault. -/
def expect (finish : EndMark) (kind : TokenKind) : List Token → Step (Option Token)
  | [] => (refuse finish (.token kind) []).as none
  | t :: rest =>
    if t.kind = kind then ⟨some t, 1, []⟩ else (refuse finish (.token kind) (t :: rest)).as none

/-- The spelling of a name that was expected, or the name of what has none. -/
def nameOr (default : String) : Option Token → String
  | some t => t.text
  | none => default

end Grammar
end PascalCheck
