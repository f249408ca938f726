import PascalCheck.Diagnostic.Basic

/-! The diagnostics of one run, in the order in which they were found, and the views of them. -/
namespace PascalCheck

/-- The diagnostics of one run, in the order in which they were found. -/
structure Bag where
  entries : List Diagnostic := []
  deriving DecidableEq

/-- What a run stops with when it is told to stop at errors. -/
structure Refusal where
  message : String
  line : Int
  deriving DecidableEq

namespace Bag

def add (bag : Bag) (d : Diagnostic) : Bag :=
  ⟨bag.entries ++ [d]⟩

def size (bag : Bag) : Nat :=
  bag.entries.length

def isEmpty (bag : Bag) : Bool :=
  bag.entries.isEmpty

def errors (bag : Bag) : List Diagnostic :=
  bag.entries.filter Diagnostic.isError

def warnings (bag : Bag) : List Diagnostic :=
  bag.entries.filter Diagnostic.isWarning

def hasErrors (bag : Bag) : Bool :=
  bag.entries.any Diagnostic.isError

def ofPhase (bag : Bag) (phase : Phase) : List Diagnostic :=
  bag.entries.filter (·.phase = phase)

/-- By line; on one line, in the order in which they were found. -/
def sorted (bag : Bag) : List Diagnostic :=
  bag.entries.mergeSort fun a b => a.line ≤ b.line

/-- The number of errors and of warnings. -/
def tally (bag : Bag) : String :=
  s!"{bag.errors.length} error(s), {bag.warnings.length} warning(s)"

/-- The report of a run: its diagnostics by line, a rule, and the tally. -/
def report (bag : Bag) : String :=
  if bag.isEmpty then "No diagnostics."
  else
    let lines := bag.sorted.map fun d => s!"{d.severity.icon} {d.render}"
    let rule := String.ofList (List.replicate 60 '─')
    "\n".intercalate (lines ++ [rule, bag.tally])

/-- All errors in one text, with the line of the first one found; nothing if there are none. -/
def refusal? (bag : Bag) : Option Refusal :=
  match bag.errors with
  | [] => none
  | first :: more =>
    let texts := (first :: more).map Diagnostic.render
    some ⟨"\n".intercalate (s!"{texts.length} error(s) found." :: texts), first.line⟩

@[simp] theorem entries_add (bag : Bag) (d : Diagnostic) :
    (bag.add d).entries = bag.entries ++ [d] := rfl

end Bag
end PascalCheck
