/-!
# LineCalc — unpaired surrogates

Two 16-bit units, the surrogates, make up one character past the first 65536. Text can be escaped
unit by unit, and then one surrogate can stand without the other. No character has its code, and so
a text holds a private character in its place, the stand-in. Wherever the code of a character is
written or compared, that of a stand-in is the code of its surrogate (`codePoint`).

The stand-ins are the private characters U+FD800 to U+FDFFF. So these themselves cannot be told from
the surrogates they stand for, and a text that really holds one of them is not a text of this model.
-/

namespace LineCalc

namespace Text

/-- Whether a 16-bit unit is the first half of a pair. -/
def isHighSurrogate (n : Nat) : Bool :=
  0xD800 ≤ n && n < 0xDC00

/-- Whether a 16-bit unit is the second half of a pair. -/
def isLowSurrogate (n : Nat) : Bool :=
  0xDC00 ≤ n && n < 0xE000

/-- Whether a 16-bit unit is half of a pair. -/
def isSurrogate (n : Nat) : Bool :=
  isHighSurrogate n || isLowSurrogate n

/-- The code of the character that a pair makes up. -/
def pairCode (high low : Nat) : Nat :=
  0x10000 + (high - 0xD800) * 0x400 + (low - 0xDC00)

/-- How far the code of a stand-in lies above its surrogate. -/
def standInOffset : Nat := 0xF0000

/-- The character of a unit: a stand-in for a surrogate, else the one with this code. -/
def ofUnit (n : Nat) : Char :=
  Char.ofNat (if isSurrogate n then n + standInOffset else n)

/-- The code of a character, and for a stand-in that of its surrogate. No character is taken for itself
that has the code of a stand-in. -/
def codePoint (c : Char) : Nat :=
  if isSurrogate (c.toNat - standInOffset) then c.toNat - standInOffset else c.toNat

/-- Whether a text holds a stand-in, and so cannot be encoded as bytes. -/
def holdsSurrogate (s : String) : Bool :=
  s.toList.any fun c => isSurrogate (codePoint c)

/-- The character of a code has this code. -/
theorem toNat_charOfNat {n : Nat} (h : n.isValidChar) : (Char.ofNat n).toNat = n := by
  rw [Char.ofNat, dif_pos h]
  rfl

/-- The surrogates lie together. -/
theorem isSurrogate_iff {n : Nat} : isSurrogate n = true ↔ 0xD800 ≤ n ∧ n < 0xE000 := by
  simp only [isSurrogate, isHighSurrogate, isLowSurrogate, Bool.or_eq_true, Bool.and_eq_true,
    decide_eq_true_eq]
  omega

/-- **Every unit is the code of its character.** -/
theorem codePoint_ofUnit {n : Nat} (h : n < 0x10000) : codePoint (ofUnit n) = n := by
  unfold codePoint ofUnit
  by_cases hs : isSurrogate n = true
  · have hn := isSurrogate_iff.1 hs
    have hc : (Char.ofNat (n + standInOffset)).toNat = n + standInOffset :=
      toNat_charOfNat (Or.inr (by unfold standInOffset; omega))
    rw [if_pos hs, hc, Nat.add_sub_cancel, if_pos hs]
  · have hn : ¬(0xD800 ≤ n ∧ n < 0xE000) := mt isSurrogate_iff.2 hs
    have hc : (Char.ofNat n).toNat = n := toNat_charOfNat (by unfold Nat.isValidChar; omega)
    have hz : n - standInOffset = 0 := by unfold standInOffset; omega
    rw [if_neg hs, hc, hz, if_neg (by decide)]

end Text

end LineCalc
