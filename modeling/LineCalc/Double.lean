import LineCalc.Power
/-!
# LineCalc — doubles taken apart

Every finite double is a natural number times a power of two. `Double.ofFloat` gives that form, and
`Double.nearest` goes the other way: it rounds a quotient of natural numbers to the nearest double,
a tie to the one with the even significand, past the largest one to an infinity. All of it is
arithmetic on natural numbers, so that what is read and what is written meet in one place.
-/

namespace LineCalc

/-- A double taken apart. A finite one is `significand * 2 ^ exponent`, with its sign. -/
inductive Double where
  | nan
  | infinite (negative : Bool)
  | finite (negative : Bool) (significand : Nat) (exponent : Int)
deriving DecidableEq

namespace Double

/-- The parts of the double with the bits `b`: a sign, eleven bits of exponent, and the fraction
below a leading one that only the smallest exponent goes without. -/
def ofBits (b : UInt64) : Double :=
  let negative : Bool := Power.two 63 ≤ b.toNat
  let field : Nat := b.toNat / Power.two 52 % Power.two 11
  let fraction : Nat := b.toNat % Power.two 52
  if field = 2047 then (if fraction = 0 then .infinite negative else .nan)
  else if field = 0 then .finite negative fraction (-1074)
  else .finite negative (Power.two 52 + fraction) ((field : Int) - 1075)

/-- The parts of a double. -/
def ofFloat (x : Float) : Double :=
  ofBits x.toBits

/-- Whether a double is neither infinite nor not a number. -/
def isFinite (x : Float) : Bool :=
  match ofFloat x with
  | .finite _ _ _ => true
  | _ => false

/-- Whether a double is not a number. -/
def isNaN (x : Float) : Bool :=
  ofFloat x = .nan

/-- Bits of the infinity, sign aside: those of every finite double are below. -/
def infinityBits : Nat := 2047 * Power.two 52

/-- Bits of `significand * 2 ^ exponent`, for a significand that fills its field. A significand
that rounding has carried to the next power of two counts into the exponent, as it should. -/
def pack (significand : Nat) (exponent : Int) : Nat :=
  significand + (exponent + 1074).toNat * Power.two 52

/-- `n / d` to the nearest natural number, a tie to the even one. -/
def roundDiv (n d : Nat) : Nat :=
  let rest := 2 * (n % d)
  if rest < d ∨ (rest = d ∧ n / d % 2 = 0) then n / d else n / d + 1

/-- The exponent at which `n / d` has a significand of 53 bits, or fewer at the smallest one. The
two logarithms leave it open by one. -/
def exponentOf (n d : Nat) : Int :=
  let guess := max ((n.log2 : Int) - d.log2 - 53) (-1074)
  if n * Power.two (-guess).toNat < d * Power.two guess.toNat * Power.two 53 then guess
  else guess + 1

/-- Bits of the double nearest to `n / d`, sign aside. -/
def nearestBits (n d : Nat) : Nat :=
  if n = 0 then 0
  else
    let q := exponentOf n d
    min (pack (roundDiv (n * Power.two (-q).toNat) (d * Power.two q.toNat)) q) infinityBits

/-- The double with the bits `bits` and the sign given. -/
def signed (negative : Bool) (bits : Nat) : Float :=
  Float.ofBits (bits + if negative then Power.two 63 else 0).toUInt64

/-- The double nearest to `n / d`, with the sign given. -/
def nearest (negative : Bool) (n d : Nat) : Float :=
  signed negative (nearestBits n d)

/-- The least integer that is not below a finite double. -/
def ceiling (negative : Bool) (m : Nat) (q : Int) : Int :=
  let n := m * Power.two q.toNat
  let d := Power.two (-q).toNat
  if negative then -((n / d : Nat) : Int) else ((n + d - 1) / d : Nat)

end Double

end LineCalc
