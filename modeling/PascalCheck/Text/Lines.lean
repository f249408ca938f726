/-! Lines of text. -/
namespace PascalCheck
namespace Text

/-- The text with every line ended by a newline alone: a carriage return becomes one, together with
the newline after it. -/
def foldNewlines : List Char → List Char
  | '\r' :: '\n' :: rest => '\n' :: foldNewlines rest
  | '\r' :: rest => '\n' :: foldNewlines rest
  | c :: rest => c :: foldNewlines rest
  | [] => []

/-- The stretches of text between separators. -/
def splitAt (separator : Char) : List Char → List (List Char)
  | [] => [[]]
  | c :: rest =>
    match splitAt separator rest with
    | [] => [[c]]
    | stretch :: more =>
      if c = separator then [] :: stretch :: more else (c :: stretch) :: more

/-- The stretches of text between newlines. -/
def splitLines (cs : List Char) : List (List Char) :=
  splitAt '\n' cs

/-- The lines one after the other, a newline after each. -/
def joinLines (lines : List String) : String :=
  String.join (lines.map (· ++ "\n"))

end Text
end PascalCheck
