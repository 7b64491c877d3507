/-!
# LineCalc — decimal digits of every script

Each script with positional digits has ten of them in a row, the zero first. `digitValue?` finds
the row a character is in, after version 14 of the Unicode character database, and so the value of
the digit; `isAsciiDigit` is the narrower class that the lexer goes by.
-/

namespace LineCalc

namespace Text

/-- The zeros past ASCII; the nine digits after each follow it. -/
def digitZeros : List Nat := [
  1632, 1776, 1984, 2406, 2534, 2662, 2790, 2918, 3046, 3174, 3302, 3430, 3558, 3664, 3792, 3872,
  4160, 4240, 6112, 6160, 6470, 6608, 6784, 6800, 6992, 7088, 7232, 7248, 42528, 43216, 43264,
  43472, 43504, 43600, 44016, 65296, 66720, 68912, 69734, 69872, 69942, 70096, 70384, 70736,
  70864, 71248, 71360, 71472, 71904, 72016, 72784, 73040, 73120, 92768, 92864, 93008, 120782,
  120792, 120802, 120812, 120822, 123200, 123632, 125264, 130032]

/-- The value of `n` in the row that starts at the first zero it reaches. -/
def digitAmong : (zeros : List Nat) → (n : Nat) → Option Nat
  | [], _ => none
  | first :: rest, n =>
    if n < first then none else if n < first + 10 then some (n - first) else digitAmong rest n

/-- The value of a decimal digit, of any script. -/
def digitValue? (c : Char) : Option Nat :=
  if c.toNat < 128 then digitAmong [48] c.toNat else digitAmong digitZeros c.toNat

/-- One of the ten ASCII digits. -/
def isAsciiDigit (c : Char) : Bool :=
  '0' ≤ c && c ≤ '9'

/-- One of the ASCII letters. -/
def isAsciiLetter (c : Char) : Bool :=
  'a' ≤ c && c ≤ 'z' || 'A' ≤ c && c ≤ 'Z'

/-- The digits of a number are of these. -/
theorem isAsciiDigit_of_mem_toDigits {n : Nat} {c : Char} (h : c ∈ Nat.toDigits 10 n) :
    isAsciiDigit c = true := by
  have hdigit : c.isDigit = true := Nat.isDigit_of_mem_toDigits (by decide) (by decide) h
  simpa [isAsciiDigit, Char.isDigit, Char.le_def] using hdigit

/-- **A digit found among rows is less than ten.** -/
theorem digitAmong_lt {zeros : List Nat} {n d : Nat} (h : digitAmong zeros n = some d) :
    d < 10 := by
  induction zeros with
  | nil => simp [digitAmong] at h
  | cons first rest ih =>
    simp only [digitAmong] at h
    split at h
    · simp at h
    · split at h
      · simp only [Option.some.injEq] at h
        omega
      · exact ih h

/-- So a digit's value is less than ten. -/
theorem digitValue?_lt {c : Char} {d : Nat} (h : digitValue? c = some d) : d < 10 := by
  unfold digitValue? at h
  split at h <;> exact digitAmong_lt h

end Text

end LineCalc
