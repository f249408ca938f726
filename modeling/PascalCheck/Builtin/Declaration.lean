import PascalCheck.Text.Blank
import PascalCheck.Text.Case
import PascalCheck.Text.Word

/-! Lines that declare built-in routines:

    function  name(min[..max]): type;
    procedure name(min[..max]);

White space may stand between the parts, and anything after the semicolon. A result is read for a
procedure too. -/
namespace PascalCheck

/-- A line that declares a built-in routine. -/
structure BuiltinDeclaration where
  isFunction : Bool
  name : String
  minimum : Nat
  maximum : Nat
  result : Option String
  deriving DecidableEq

namespace BuiltinDeclaration

/-- What is left of a line after a part of it. -/
abbrev Remainder := List Char

/-- The line without the white space in front. -/
def skipBlank (cs : List Char) : Remainder :=
  cs.dropWhile Text.isBlank

/-- A letter of a reserved word, in either case. The dotless and the dotted capital i count as
forms of i. -/
def isLetterOf (expected c : Char) : Bool :=
  c.toLower == expected || (expected == 'i' && (c.toNat == 0x130 || c.toNat == 0x131))

/-- A word, in any letter case, and what follows it; nothing if the line begins otherwise. -/
def word? : (word : List Char) → List Char → Option Remainder
  | [], cs => some cs
  | _ :: _, [] => none
  | w :: word, c :: cs => if isLetterOf w c then word? word cs else none

/-- A letter with which a name begins: a Latin letter without marks, in any of its forms, or the
underscore. -/
def beginsName (c : Char) : Bool :=
  c.toNat < 0x80 && c.isAlpha || c == '_' || [0x130, 0x131, 0x17f, 0x212a].contains c.toNat

/-- The first word of a line tells functions from procedures; the word counts as `function` only in
letters that have that lower case. -/
def kind? (cs : List Char) : Option (Bool × Remainder) :=
  match word? "function".toList cs with
  | some rest =>
    some (Text.lower (String.ofList (cs.take 8)) = "function", rest)
  | none => (word? "procedure".toList cs).map fun rest => (false, rest)

/-- The name of a routine, after at least one white space. -/
def name? (cs : List Char) : Option (String × Remainder) :=
  match cs with
  | [] => none
  | c :: rest =>
    if Text.isBlank c then
      match skipBlank rest with
      | [] => none
      | d :: more =>
        if beginsName d then
          some (String.ofList (d :: more.takeWhile Text.isWordChar),
            more.dropWhile Text.isWordChar)
        else none
    else none

/-- The character, with white space around it, and what follows. -/
def mark? (c : Char) (cs : List Char) : Option Remainder :=
  match skipBlank cs with
  | d :: rest => if d = c then some (skipBlank rest) else none
  | [] => none

/-- A number of one or more digits. -/
def number? (cs : List Char) : Option (Nat × Remainder) :=
  match cs.takeWhile Text.isDecimal with
  | [] => none
  | digits => some (Text.decimalNumber digits, cs.dropWhile Text.isDecimal)

/-- The greatest number of arguments after two points; the least one where no points follow. -/
def maximum? (minimum : Nat) (cs : List Char) : Option (Nat × Remainder) :=
  match skipBlank cs with
  | '.' :: '.' :: rest => number? (skipBlank rest)
  | rest => some (minimum, rest)

/-- The name of a result after a colon; none where no colon follows. -/
def result? (cs : List Char) : Option (Option String × Remainder) :=
  match skipBlank cs with
  | ':' :: rest =>
    let body := skipBlank rest
    match body.takeWhile Text.isWordChar with
    | [] => none
    | name => some (some (String.ofList name), body.dropWhile Text.isWordChar)
  | rest => some (none, rest)

/-- Reads a line that has no white space at its ends. -/
def read? (line : List Char) : Option BuiltinDeclaration := do
  let (isFunction, afterKind) ← kind? line
  let (name, afterName) ← name? afterKind
  let opened ← mark? '(' afterName
  let (minimum, afterMinimum) ← number? opened
  let (maximum, afterMaximum) ← maximum? minimum afterMinimum
  let closed ← mark? ')' afterMaximum
  let (result, afterResult) ← result? closed
  let _ ← mark? ';' afterResult
  some { isFunction, name, minimum, maximum, result }

end BuiltinDeclaration
end PascalCheck
