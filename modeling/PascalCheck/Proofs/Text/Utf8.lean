import PascalCheck.Text.Utf8

/-! # Text that is written as UTF-8 is read back

The decoder says what to do with any bytes; on the bytes of a text it gives the text. -/
namespace PascalCheck
namespace Text
namespace Utf8

section
variable {byte : Nat}

theorem lead_ascii (h : byte ≤ 0x7f) : lead byte = ([Char.ofNat byte], none) :=
  if_pos h

/-- The two least leads of two bytes are left out, as they would spell ASCII. -/
theorem lead_two (h : 0xc2 ≤ byte) (h' : byte ≤ 0xdf) :
    lead byte = ([], some ⟨1, 0x80, 0xbf, byte % 0x20⟩) := by
  rw [lead, if_neg (by omega), if_neg (by omega), if_pos h']

/-- The first two bytes of three rule out what is shorter, and the surrogates. -/
theorem lead_three (h : 0xe0 ≤ byte) (h' : byte ≤ 0xef) : lead byte =
    ([], some ⟨2, if byte = 0xe0 then 0xa0 else 0x80, if byte = 0xed then 0x9f else 0xbf,
      byte % 0x10⟩) := by
  rw [lead, if_neg (by omega), if_neg (by omega), if_neg (by omega), if_pos h']

/-- The first two bytes of four rule out what is shorter, and what is above all characters. -/
theorem lead_four (h : 0xf0 ≤ byte) (h' : byte ≤ 0xf4) : lead byte =
    ([], some ⟨3, if byte = 0xf0 then 0x90 else 0x80, if byte = 0xf4 then 0x8f else 0xbf,
      byte % 0x08⟩) := by
  rw [lead, if_neg (by omega), if_neg (by omega), if_neg (by omega), if_neg (by omega), if_pos h']

end

section
variable {begun : Begun} {byte v : Nat} {rest : List UInt8}

theorem toNat_ofNat (h : byte < 0x100) : (UInt8.ofNat byte).toNat = byte := by
  rw [UInt8.toNat_ofNat', Nat.mod_eq_of_lt h]

/-- The first byte of a character. -/
theorem decodeAfter_first (h : byte < 0x100) : decodeAfter none (UInt8.ofNat byte :: rest) =
    (lead byte).1 ++ decodeAfter (lead byte).2 rest := by
  rw [decodeAfter, toNat_ofNat h]
  rfl

/-- A byte of a character that is neither the first one nor the last one. -/
theorem decodeAfter_more (hbyte : byte < 0x100) (howed : begun.owed ≠ 1)
    (hleast : begun.least ≤ byte) (hgreatest : byte ≤ begun.greatest) :
    decodeAfter (some begun) (UInt8.ofNat byte :: rest) =
      decodeAfter (some ⟨begun.owed - 1, 0x80, 0xbf, begun.bits * 0x40 + byte % 0x40⟩) rest := by
  rw [decodeAfter, toNat_ofNat hbyte]
  simp only [step, if_pos (And.intro hleast hgreatest), if_neg howed, List.nil_append]

/-- The last byte of a character, if that has several. -/
theorem decodeAfter_last (hbyte : byte < 0x100) (howed : begun.owed = 1)
    (hleast : begun.least ≤ byte) (hgreatest : byte ≤ begun.greatest)
    (hv : begun.bits * 0x40 + byte % 0x40 = v) :
    decodeAfter (some begun) (UInt8.ofNat byte :: rest) =
      Char.ofNat v :: decodeAfter none rest := by
  rw [decodeAfter, toNat_ofNat hbyte]
  simp only [step, if_pos (And.intro hleast hgreatest), if_pos howed, hv, List.singleton_append]

theorem decodeAfter_one (h : v ≤ 0x7f) :
    decodeAfter none (UInt8.ofNat v :: rest) = Char.ofNat v :: decodeAfter none rest := by
  rw [decodeAfter_first (by omega), lead_ascii h, List.singleton_append]

theorem decodeAfter_two (h : 0x7f < v) (h' : v ≤ 0x7ff) :
    decodeAfter none (UInt8.ofNat (v / 64 % 32 + 192) :: UInt8.ofNat (v % 64 + 128) :: rest) =
      Char.ofNat v :: decodeAfter none rest := by
  rw [decodeAfter_first (by omega), lead_two (by omega) (by omega), List.nil_append]
  apply decodeAfter_last (by omega) rfl
  all_goals
    dsimp only
    omega

theorem decodeAfter_three (h : 0x7ff < v) (h' : v ≤ 0xffff) (hvalid : v < 0xd800 ∨ 0xdfff < v) :
    decodeAfter none (UInt8.ofNat (v / 4096 % 16 + 224) :: UInt8.ofNat (v / 64 % 64 + 128) ::
      UInt8.ofNat (v % 64 + 128) :: rest) = Char.ofNat v :: decodeAfter none rest := by
  rw [decodeAfter_first (by omega), lead_three (by omega) (by omega), List.nil_append,
    decodeAfter_more (by omega) (by simp)]
  · apply decodeAfter_last (by omega) rfl
    all_goals
      dsimp only
      omega
  -- Short and surrogate codes would need a second byte out of the bounds.
  · dsimp only
    split
    · omega
    · omega
  · dsimp only
    split
    · omega
    · omega

theorem decodeAfter_four (h : 0xffff < v) (h' : v < 0x110000) :
    decodeAfter none (UInt8.ofNat (v / 262144 % 8 + 240) :: UInt8.ofNat (v / 4096 % 64 + 128) ::
      UInt8.ofNat (v / 64 % 64 + 128) :: UInt8.ofNat (v % 64 + 128) :: rest) =
        Char.ofNat v :: decodeAfter none rest := by
  rw [decodeAfter_first (by omega), lead_four (by omega) (by omega), List.nil_append,
    decodeAfter_more (by omega) (by simp), decodeAfter_more (by omega) (by simp)]
  · apply decodeAfter_last (by omega) rfl
    all_goals
      dsimp only
      omega
  · dsimp only
    omega
  · dsimp only
    omega
  · dsimp only
    split
    · omega
    · omega
  · dsimp only
    split
    · omega
    · omega

end

/-- **The bytes of a character are read back as it**, whatever follows. -/
theorem decodeAfter_utf8EncodeChar (c : Char) (rest : List UInt8) :
    decodeAfter none (String.utf8EncodeChar c ++ rest) = c :: decodeAfter none rest := by
  have hvalid : c.toNat < 0xd800 ∨ 0xdfff < c.toNat ∧ c.toNat < 0x110000 := c.valid
  obtain ⟨v, hv, hcode⟩ : ∃ v, c.toNat = v ∧ Char.ofNat v = c := ⟨_, rfl, Char.ofNat_toNat c⟩
  rw [hv] at hvalid
  simp only [String.utf8EncodeChar, show c.val.toNat = v from hv]
  rw [← hcode]
  split
  · rename_i hone
    exact decodeAfter_one hone
  · split
    · rename_i htwo
      exact decodeAfter_two (by omega) htwo
    · split
      · rename_i hthree
        exact decodeAfter_three (by omega) hthree (by omega)
      · exact decodeAfter_four (by omega) (by omega)

/-- **What is written is read back.** -/
theorem decode_toUTF8 (text : String) : decode text.toUTF8.data.toList = text.toList := by
  have hdecode : ∀ cs : List Char, decode (cs.flatMap String.utf8EncodeChar) = cs := by
    intro cs
    induction cs with
    | nil => rfl
    | cons c rest ih =>
      rw [decode, List.flatMap_cons, decodeAfter_utf8EncodeChar]
      exact congrArg (c :: ·) ih
  have hbytes : text.toUTF8 = (text.toList.flatMap String.utf8EncodeChar).toByteArray := by
    have hencode := String.toByteArray_ofList (l := text.toList)
    rwa [String.ofList_toList] at hencode
  rw [hbytes, List.data_toByteArray, List.toList_toArray, hdecode]

end Utf8
end Text
end PascalCheck
