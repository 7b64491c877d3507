import LineCalc.Double
/-!
# LineCalc — decimal numbers and the doubles they stand for

A `Decimal` is a natural number times a power of ten. `toFloat` reads one as the nearest double.
Two ways lead back from a double `m * 2 ^ q`: `rounded` keeps a given count of digits, and
`shortest` keeps the fewest digits that read back to the same double, which is what a number is
stored as. A candidate of `shortest` is read back before it is taken, and where none passes the
exact expansion stands in: it has every digit.
-/

namespace LineCalc

/-- `digits * 10 ^ exponent`. -/
structure Decimal where
  digits : Nat
  exponent : Int
deriving DecidableEq

namespace Decimal

/-- Bits of the double nearest to a decimal number. A number past the largest double, or one far
below the smallest, is told by its size, before any power of ten is taken. -/
def nearestBits (d : Decimal) : Nat :=
  if d.digits = 0 then 0
  else if 310 < d.exponent then Double.infinityBits
  else if (d.digits.log2 : Int) + 1081 < -3 * d.exponent then 0
  else Double.nearestBits (d.digits * Power.ten d.exponent.toNat) (Power.ten (-d.exponent).toNat)

/-- The double nearest to a decimal number, with the sign given. -/
def toFloat (negative : Bool) (d : Decimal) : Float :=
  Double.signed negative d.nearestBits

/-- The same number with no zero at the end of its digits. At most `count` zeros are dropped. -/
def strip : (count : Nat) → Decimal → Decimal
  | 0, d => d
  | count + 1, d =>
    if d.digits % 10 = 0 ∧ d.digits ≠ 0 then strip count ⟨d.digits / 10, d.exponent + 1⟩ else d

/-- Whether `m * 2 ^ q` is below `10 ^ k`. -/
def below (m : Nat) (q k : Int) : Bool :=
  m * Power.two q.toNat * Power.ten (-k).toNat < Power.ten k.toNat * Power.two (-q).toNat

/-- The least `k` with `m * 2 ^ q` below `10 ^ k`. The binary logarithm leaves three values. -/
def magnitude (m : Nat) (q : Int) : Int :=
  let guess := ((m.log2 : Int) + q) * 30103 / 100000
  if below m q guess then guess else if below m q (guess + 1) then guess + 1 else guess + 2

/-- Numerator and denominator of `m * 2 ^ q` in units of `10 ^ g`. -/
def onGrid (m : Nat) (q g : Int) : Nat × Nat :=
  (m * Power.two q.toNat * Power.ten (-g).toNat, Power.two (-q).toNat * Power.ten g.toNat)

/-- `m * 2 ^ q` rounded to `count` digits, a tie to the even last digit. -/
def rounded (count m : Nat) (q : Int) : Decimal :=
  let g := magnitude m q - count
  let (n, d) := onGrid m q g
  strip (count + 1) ⟨Double.roundDiv n d, g⟩

/-- A decimal number of at most `count` digits that reads back as `m * 2 ^ q`: of the two
neighbours on the grid of that many digits the nearer, else the farther. -/
def neighbour? (m : Nat) (q : Int) (count : Nat) : Option Decimal :=
  let g := magnitude m q - count
  let (n, d) := onGrid m q g
  let near := Double.roundDiv n d
  let far := if near = n / d then near + 1 else n / d
  let readsBack (c : Nat) : Bool := nearestBits ⟨c, g⟩ = Double.pack m q
  if readsBack near then some ⟨near, g⟩ else if readsBack far then some ⟨far, g⟩ else none

/-- `m * 2 ^ q` with every digit. -/
def exact (m : Nat) (q : Int) : Decimal :=
  ⟨m * Power.two q.toNat * Power.five (-q).toNat, min q 0⟩

/-- The fewest digits that read back as `m * 2 ^ q`; seventeen are enough for every double. -/
def shortest (m : Nat) (q : Int) : Decimal :=
  match (List.range 17).findSome? fun i => neighbour? m q (i + 1) with
  | some d => strip 18 d
  | none => exact m q

end Decimal

end LineCalc
