/-! Places in a source text. -/
namespace PascalCheck

/-- A place between two characters: how many precede it, which line it is on, and which column of
that line follows it. Only a newline ends a line. -/
structure Place where
  offset : Nat
  line : Nat
  column : Nat
  deriving DecidableEq

namespace Place

/-- The place before the first character. -/
def first : Place := ⟨0, 1, 1⟩

/-- The place after one more character. -/
def past (place : Place) (c : Char) : Place :=
  if c = '\n' then ⟨place.offset + 1, place.line + 1, 1⟩
  else ⟨place.offset + 1, place.line, place.column + 1⟩

/-- The place after more characters. -/
def pastAll (place : Place) (cs : List Char) : Place :=
  cs.foldl past place

@[simp] theorem pastAll_nil (place : Place) : place.pastAll [] = place := rfl

@[simp] theorem pastAll_cons (place : Place) (c : Char) (cs : List Char) :
    place.pastAll (c :: cs) = (place.past c).pastAll cs := rfl

theorem pastAll_append (place : Place) (as bs : List Char) :
    place.pastAll (as ++ bs) = (place.pastAll as).pastAll bs := by
  simp [pastAll]

end Place
end PascalCheck
