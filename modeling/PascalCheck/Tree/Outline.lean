import PascalCheck.Text.Lines
import PascalCheck.Text.Quoted
import PascalCheck.Tree.Value

/-! The outline of a syntax tree: one line for each part, indented by its depth. Parts that are
absent and lists that are empty are left out; a known line is part of the label. -/
namespace PascalCheck

/-- Labelled text in the shape of a tree. -/
inductive Outline where
  | leaf (text : String)
  | branch (label : String) (children : List Outline)

namespace Outline

/-- Two spaces for each level. -/
def indent (depth : Nat) : String :=
  String.ofList (List.replicate (2 * depth) ' ')

mutual

/-- The lines of an outline at a depth. A leaf that is an only child shares its parent's line. -/
def linesAt (depth : Nat) : Outline → List String
  | leaf text => [indent depth ++ text]
  | branch label [leaf text] => [indent depth ++ label ++ "\t" ++ text]
  | branch label children => (indent depth ++ label) :: allLinesAt (depth + 1) children

/-- The lines of outlines at a depth, one after another. -/
def allLinesAt (depth : Nat) : List Outline → List String
  | [] => []
  | o :: rest => linesAt depth o ++ allLinesAt depth rest

end

/-- The lines of an outline. -/
def render (o : Outline) : String :=
  Text.joinLines (linesAt 0 o)

/-- A label with the line, if that is known. -/
def labelAt (name : String) (line : Int) : String :=
  if line = 0 then name else s!"{name}@{line}"

end Outline

open Outline

namespace SyntaxValue

/-- A field that holds nothing, or no part at all, is left out. -/
def isLeftOut : SyntaxValue → Bool
  | nothing | list [] => true
  | _ => false

/-- A field with a value and the outline of that: what has no parts stands on the line of the
field's name. -/
def fieldOutline (name : String) (value : SyntaxValue) (shown : Outline) : List Outline :=
  if value.isLeftOut then []
  else match shown with
    | leaf written => [leaf s!"{name}={written}"]
    | branch label children => [branch name [branch label children]]

mutual

/-- The outline of a value. -/
def outline : SyntaxValue → Outline
  | nothing => leaf "None"
  | text value => leaf (Text.quoted value)
  | flag value => leaf (if value then "True" else "False")
  | list items => branch "list" (outlines items)
  | part kind line fields =>
    branch (labelAt kind.label line) (fieldOutlines kind.fieldNames fields)

def outlines : List SyntaxValue → List Outline
  | [] => []
  | value :: rest => outline value :: outlines rest

/-- The outlines of fields with names. -/
def fieldOutlines : List String → List SyntaxValue → List Outline
  | name :: names, value :: rest =>
    fieldOutline name value (outline value) ++ fieldOutlines names rest
  | _, _ => []

end

end SyntaxValue

def Node.outline (node : Node) : Outline :=
  node.toValue.outline

def Program.outline (p : Program) : Outline :=
  p.toNode.outline

end PascalCheck
