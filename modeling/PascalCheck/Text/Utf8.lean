/-! Text from bytes: UTF-8, with one replacement character for each longest run of bytes that
begins a character and cannot be completed, and for each byte that begins none. -/
namespace PascalCheck
namespace Text
namespace Utf8

/-- Stands for bytes that are not UTF-8. -/
def replacement : Char := Char.ofNat 0xfffd

/-- A character that has begun: how many bytes are still owed, the bounds of the next one, and the
bits read. -/
structure Begun where
  owed : Nat
  least : Nat
  greatest : Nat
  bits : Nat

/-- The decoder after a byte: what it writes, and the character that has begun. -/
abbrev Progress := List Char × Option Begun

/-- A byte that stands where a character begins. -/
def lead (byte : Nat) : Progress :=
  if byte ≤ 0x7f then ([Char.ofNat byte], none)
  else if byte < 0xc2 then ([replacement], none)
  else if byte ≤ 0xdf then ([], some ⟨1, 0x80, 0xbf, byte % 0x20⟩)
  else if byte ≤ 0xef then
    ([], some ⟨2, if byte = 0xe0 then 0xa0 else 0x80, if byte = 0xed then 0x9f else 0xbf,
      byte % 0x10⟩)
  else if byte ≤ 0xf4 then
    ([], some ⟨3, if byte = 0xf0 then 0x90 else 0x80, if byte = 0xf4 then 0x8f else 0xbf,
      byte % 0x08⟩)
  else ([replacement], none)

/-- A byte that may continue the character that has begun; if it cannot, it begins another. -/
def step (begun : Option Begun) (byte : Nat) : Progress :=
  match begun with
  | none => lead byte
  | some b =>
    if b.least ≤ byte ∧ byte ≤ b.greatest then
      let bits := b.bits * 0x40 + byte % 0x40
      if b.owed = 1 then ([Char.ofNat bits], none) else ([], some ⟨b.owed - 1, 0x80, 0xbf, bits⟩)
    else
      (replacement :: (lead byte).1, (lead byte).2)

/-- The text of the bytes that follow a character that has begun. -/
def decodeAfter (begun : Option Begun) : List UInt8 → List Char
  | [] => if begun.isSome then [replacement] else []
  | byte :: rest =>
    let progress := step begun byte.toNat
    progress.1 ++ decodeAfter progress.2 rest

/-- The text that bytes hold. -/
def decode (bytes : List UInt8) : List Char :=
  decodeAfter none bytes

end Utf8
end Text
end PascalCheck
