import LineCalc.Text.Utf8
/-!
# LineCalc — what is encoded is decoded

The reader of bytes inverts the writer (`decode_encode`): the bytes of a text stand for that text
and for no other. The argument is one case for each length that the bytes of a character can have.
-/

namespace LineCalc

namespace Utf8

/-! ## Bytes and codes -/

theorem toNat_toUInt8 {n : Nat} (h : n < 256) : n.toUInt8.toNat = n := by
  rw [Nat.toUInt8_eq, UInt8.toNat_ofNat']
  exact Nat.mod_eq_of_lt h

/-- A byte that continues a character gives its six bits back. -/
theorem continuation?_byte (n : Nat) : continuation? (0x80 + n % 64).toUInt8 = some (n % 64) := by
  have hlow : n % 64 < 64 := Nat.mod_lt _ (by decide)
  rw [continuation?, toNat_toUInt8 (by omega), if_pos (by omega), Nat.add_sub_cancel_left]

/-- A code in range is the code of its character. -/
theorem codePoint?_toNat {least : Nat} {c : Char} (h : least ≤ c.toNat) :
    codePoint? least c.toNat = some c := by
  have hvalid : c.toNat.isValidChar := c.valid
  have hchar : Char.ofNatAux c.toNat hvalid = c := by
    rw [← dif_pos (c := c.toNat.isValidChar) (t := fun h => Char.ofNatAux c.toNat h) hvalid]
    exact Char.ofNat_toNat c
  rw [codePoint?, dif_pos ⟨h, hvalid⟩, hchar]

/-! ## One character -/

variable {c : Char} {rest : List UInt8}

theorem decode_one (h : c.toNat < 0x80) :
    decode (c.toNat.toUInt8 :: rest) = (decode rest).map (c :: ·) := by
  rw [decode.eq_def]
  simp only [toNat_toUInt8 (show c.toNat < 256 by omega), if_pos h, Char.ofNat_toNat]

theorem decode_two (hge : 0x80 ≤ c.toNat) (hlt : c.toNat < 0x800) :
    decode ((0xC0 + c.toNat / 64).toUInt8 :: (0x80 + c.toNat % 64).toUInt8 :: rest)
      = (decode rest).map (c :: ·) := by
  have hcode : (0xC0 + c.toNat / 64 - 0xC0) * 64 + c.toNat % 64 = c.toNat := by omega
  rw [decode]
  simp only [toNat_toUInt8 (show 0xC0 + c.toNat / 64 < 256 by omega), continuation?_byte, hcode,
    codePoint?_toNat hge]
  rw [if_neg (by omega), if_neg (by omega), if_pos (by omega)]
  rfl

theorem decode_three (hge : 0x800 ≤ c.toNat) (hlt : c.toNat < 0x10000) :
    decode ((0xE0 + c.toNat / 4096).toUInt8 :: (0x80 + c.toNat / 64 % 64).toUInt8
        :: (0x80 + c.toNat % 64).toUInt8 :: rest)
      = (decode rest).map (c :: ·) := by
  have hcode : ((0xE0 + c.toNat / 4096 - 0xE0) * 64 + c.toNat / 64 % 64) * 64 + c.toNat % 64
      = c.toNat := by omega
  rw [decode]
  simp only [toNat_toUInt8 (show 0xE0 + c.toNat / 4096 < 256 by omega), continuation?_byte, hcode,
    codePoint?_toNat hge]
  rw [if_neg (by omega), if_neg (by omega), if_neg (by omega), if_pos (by omega)]
  rfl

theorem decode_four (hge : 0x10000 ≤ c.toNat) :
    decode ((0xF0 + c.toNat / 262144).toUInt8 :: (0x80 + c.toNat / 4096 % 64).toUInt8
        :: (0x80 + c.toNat / 64 % 64).toUInt8 :: (0x80 + c.toNat % 64).toUInt8 :: rest)
      = (decode rest).map (c :: ·) := by
  have hlt : c.toNat < 0x110000 := by
    rcases c.valid with h | ⟨-, h⟩
    · exact Nat.lt_trans h (by decide)
    · exact h
  have hcode : (((0xF0 + c.toNat / 262144 - 0xF0) * 64 + c.toNat / 4096 % 64) * 64
      + c.toNat / 64 % 64) * 64 + c.toNat % 64 = c.toNat := by omega
  rw [decode]
  simp only [toNat_toUInt8 (show 0xF0 + c.toNat / 262144 < 256 by omega), continuation?_byte,
    hcode, codePoint?_toNat hge]
  rw [if_neg (by omega), if_neg (by omega), if_neg (by omega), if_neg (by omega)]
  rfl

/-- **The bytes of a character are read as that character**, whatever comes after them. -/
theorem decode_encodeChar (c : Char) (rest : List UInt8) :
    decode (encodeChar c ++ rest) = (decode rest).map (c :: ·) := by
  rw [encodeChar]
  by_cases h₁ : c.toNat < 0x80
  · rw [if_pos h₁]
    exact decode_one h₁
  by_cases h₂ : c.toNat < 0x800
  · rw [if_neg h₁, if_pos h₂]
    exact decode_two (by omega) h₂
  by_cases h₃ : c.toNat < 0x10000
  · rw [if_neg h₁, if_neg h₂, if_pos h₃]
    exact decode_three (by omega) h₃
  · rw [if_neg h₁, if_neg h₂, if_neg h₃]
    exact decode_four (by omega)

/-! ## Texts -/

/-- **What is encoded is decoded.** -/
theorem decode_encode (cs : List Char) : decode (encode cs) = some cs := by
  induction cs with
  | nil => rw [encode, List.flatMap_nil, decode]
  | cons c cs ih =>
    rw [encode, List.flatMap_cons, decode_encodeChar, ← encode, ih]
    rfl

end Utf8

end LineCalc
