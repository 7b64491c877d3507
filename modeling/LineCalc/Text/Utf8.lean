/-!
# LineCalc — text as bytes

The encoding of characters in one to four bytes, and its reading. `decode` takes the shortest form
of each code point only, and no surrogate: of two byte lists at most one stands for a given text.
-/

namespace LineCalc

namespace Utf8

/-- The six low bits of a byte that continues a character. -/
def continuation? (b : UInt8) : Option Nat :=
  if 0x80 ≤ b.toNat ∧ b.toNat < 0xC0 then some (b.toNat - 0x80) else none

/-- The character with the code `n`, if it lies in the range that `least` opens. -/
def codePoint? (least n : Nat) : Option Char :=
  if h : least ≤ n ∧ n.isValidChar then some (Char.ofNatAux n h.2) else none

/-- The text that the bytes stand for, or nothing if they are not well formed. -/
def decode : (bytes : List UInt8) → Option (List Char)
  | [] => some []
  | b :: rest =>
    let n := b.toNat
    if n < 0x80 then (decode rest).map (Char.ofNat n :: ·)
    else match rest with
      | [] => none
      | b₁ :: rest₁ =>
        match continuation? b₁ with
        | none => none
        | some c₁ =>
          if n < 0xC0 then none
          else if n < 0xE0 then do
            let c ← codePoint? 0x80 ((n - 0xC0) * 64 + c₁)
            (decode rest₁).map (c :: ·)
          else match rest₁ with
            | [] => none
            | b₂ :: rest₂ =>
              match continuation? b₂ with
              | none => none
              | some c₂ =>
                if n < 0xF0 then do
                  let c ← codePoint? 0x800 (((n - 0xE0) * 64 + c₁) * 64 + c₂)
                  (decode rest₂).map (c :: ·)
                else match rest₂ with
                  | [] => none
                  | b₃ :: rest₃ =>
                    match continuation? b₃ with
                    | none => none
                    | some c₃ => do
                      let c ← codePoint? 0x10000 ((((n - 0xF0) * 64 + c₁) * 64 + c₂) * 64 + c₃)
                      (decode rest₃).map (c :: ·)

/-- The bytes of one character. -/
def encodeChar (c : Char) : List UInt8 :=
  let n := c.toNat
  if n < 0x80 then [n.toUInt8]
  else if n < 0x800 then [(0xC0 + n / 64).toUInt8, (0x80 + n % 64).toUInt8]
  else if n < 0x10000 then
    [(0xE0 + n / 4096).toUInt8, (0x80 + n / 64 % 64).toUInt8, (0x80 + n % 64).toUInt8]
  else
    [(0xF0 + n / 262144).toUInt8, (0x80 + n / 4096 % 64).toUInt8, (0x80 + n / 64 % 64).toUInt8,
      (0x80 + n % 64).toUInt8]

/-- The bytes of a text. -/
def encode (cs : List Char) : List UInt8 :=
  cs.flatMap encodeChar

end Utf8

end LineCalc
