import LineCalc.Decimal.Basic
import LineCalc.Text.Blank
import LineCalc.Text.DecimalDigit
/-!
# LineCalc — numbers read from text

Three readers of numbers. `Literal.read?` takes the plain literals of an expression: digits with at
most one point. `Numeral.float?` and `Numeral.int?` take what a setting or a saved field may hold,
with blanks around, a sign, low lines between digits, an exponent, and words for the numbers that
are not finite. Digits of every script count.
-/

namespace LineCalc

/-- A plain literal: `coefficient / 10 ^ places`. -/
structure Literal where
  coefficient : Nat
  places : Nat
deriving DecidableEq

namespace Literal

/-- Reads the rest of a literal, `some places` being the digits seen after the point. One digit at
least has to be there; a line feed may end the text. -/
def readFrom (any : Bool) (places : Option Nat) (coefficient : Nat) : List Char → Option Literal
  | [] => if any then some ⟨coefficient, places.getD 0⟩ else none
  | c :: cs =>
    if c = '\n' ∧ cs = [] then (if any then some ⟨coefficient, places.getD 0⟩ else none)
    else if c = '.' then
      match places with
      | none => readFrom any (some 0) coefficient cs
      | some _ => none
    else
      match Text.digitValue? c with
      | some d => readFrom true (places.map (· + 1)) (10 * coefficient + d) cs
      | none => none

/-- The literal that a text spells: digits, at most one point, one digit at least. -/
def read? (cs : List Char) : Option Literal :=
  readFrom false none 0 cs

end Literal

namespace Numeral

/-- A digit of any script as the ASCII digit of its value; all else as it is. -/
def asciiDigit (c : Char) : Char :=
  match Text.digitValue? c with
  | some d => Nat.digitChar d
  | none => c

/-- Takes out low lines, each of which must stand between two digits; `after` tells that the last
character was a digit. -/
def joinDigits (after : Bool) : List Char → Option (List Char)
  | [] => some []
  | '_' :: c :: cs =>
    if after && Text.isAsciiDigit c then (joinDigits true cs).map (c :: ·) else none
  | c :: cs =>
    if c = '_' then none else (joinDigits (Text.isAsciiDigit c) cs).map (c :: ·)

/-- The bare form of a number's text: blanks cut off, ASCII digits, no low lines. -/
def bare? (s : String) : Option (List Char) :=
  joinDigits false ((Text.trimBy Text.isNumericBlank s.toList).map asciiDigit)

/-- Takes a sign off; true for a minus. -/
def splitSign : List Char → Bool × List Char
  | '-' :: cs => (true, cs)
  | '+' :: cs => (false, cs)
  | cs => (false, cs)

/-- The digits that a text starts with, and the rest. -/
def splitDigits (cs : List Char) : List Char × List Char :=
  (cs.takeWhile Text.isAsciiDigit, cs.dropWhile Text.isAsciiDigit)

/-- The number that ASCII digits spell. -/
def natOf (ds : List Char) : Nat :=
  Nat.ofDigitChars 10 ds 0

/-- Takes a point and the digits after it off. -/
def splitFraction : List Char → List Char × List Char
  | '.' :: cs => splitDigits cs
  | cs => ([], cs)

/-- Takes an exponent off; nothing if an exponent is begun and has no digit. -/
def splitExponent : List Char → Option (Int × List Char)
  | [] => some (0, [])
  | c :: cs =>
    if c = 'e' ∨ c = 'E' then
      let (negative, rest) := splitSign cs
      let (ds, rest) := splitDigits rest
      if ds.isEmpty then none
      else some (if negative then -(natOf ds : Int) else natOf ds, rest)
    else some (0, c :: cs)

/-- The decimal number made of whole digits, digits after the point, and an exponent. -/
def decimal (whole fraction : List Char) (exponent : Int) : Decimal :=
  ⟨natOf (whole ++ fraction), exponent - fraction.length⟩

/-- An unsigned number in bare form that takes the whole text. -/
def unsigned? (cs : List Char) : Option Decimal := do
  let (whole, rest) := splitDigits cs
  let (fraction, rest) := splitFraction rest
  if whole.isEmpty && fraction.isEmpty then none
  else
    let (exponent, rest) ← splitExponent rest
    if rest.isEmpty then some (decimal whole fraction exponent) else none

/-- The bits of the quiet number that is not one. -/
def nanBits : Nat := 2047 * Power.two 52 + Power.two 51

/-- **The double that a text spells.** Words for the infinities and for what is not a number are
taken in any case. -/
def float? (s : String) : Option Float := do
  let (negative, cs) := splitSign (← bare? s)
  let word := String.ofList (cs.map Char.toLower)
  if word = "inf" ∨ word = "infinity" then some (Double.signed negative Double.infinityBits)
  else if word = "nan" then some (Double.signed false nanBits)
  else (unsigned? cs).map (Decimal.toFloat negative)

/-- The longest run of digits that is read as an integer. -/
def maxDigits : Nat := 4300

/-- The integer that a text spells. -/
def int? (s : String) : Option Int := do
  let (negative, cs) := splitSign (← bare? s)
  if cs.isEmpty || !cs.all Text.isAsciiDigit || maxDigits < cs.length then none
  else some (if negative then -(natOf cs : Int) else natOf cs)

/-- The double nearest to an integer; nothing where the nearest would be infinite. -/
def floatOfInt? (n : Int) : Option Float :=
  let bits := Double.nearestBits n.natAbs 1
  if bits < Double.infinityBits then some (Double.signed (n < 0) bits) else none

end Numeral

end LineCalc
