/-! Text set in columns. Widths count characters; a longer text is left whole. -/
namespace PascalCheck
namespace Text

/-- Spaces after the text up to the width. -/
def padRight (width : Nat) (text : String) : String :=
  text ++ String.ofList (List.replicate (width - text.length) ' ')

/-- Spaces before the text up to the width. -/
def padLeft (width : Nat) (text : String) : String :=
  String.ofList (List.replicate (width - text.length) ' ') ++ text

end Text
end PascalCheck
