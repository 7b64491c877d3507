import LineCalc.Decimal.Basic
/-!
# LineCalc — how digits are laid out

The same digits can be written out in place or with an exponent. A `Layout` holds the decisions of
one format: from which power of ten on a number gets an exponent, and what marks a whole number
written in place. Below a ten-thousandth every format here uses an exponent, always signed and of
at least two digits.
-/

namespace LineCalc

/-- The decisions of one format for numbers. -/
structure Layout where
  /-- Numbers from `10 ^ limit` on are written with an exponent. -/
  limit : Int
  /-- Follows the digits of a whole number that is written without an exponent. -/
  wholeMark : List Char

namespace Layout

/-- The digits of a natural number. -/
def digits (n : Nat) : List Char :=
  Nat.toDigits 10 n

/-- A minus sign for a negative number. -/
def sign (negative : Bool) : List Char :=
  if negative then ['-'] else []

/-- An exponent: its sign, and at least two digits. -/
def exponentText (x : Int) : List Char :=
  let ds := digits x.natAbs
  'e' :: (if x < 0 then '-' else '+') :: (if ds.length < 2 then '0' :: ds else ds)

/-- A decimal number, sign aside. `x` is the power of ten of its first digit. -/
def place (l : Layout) (d : Decimal) : List Char :=
  let ds := digits d.digits
  let x := d.exponent + ds.length - 1
  if x < -4 ∨ l.limit ≤ x then
    match ds with
    | [] => []
    | first :: [] => first :: exponentText x
    | first :: rest => first :: '.' :: rest ++ exponentText x
  else if 0 ≤ d.exponent then ds ++ List.replicate d.exponent.toNat '0' ++ l.wholeMark
  else if 0 ≤ x then ds.take (x + 1).toNat ++ '.' :: ds.drop (x + 1).toNat
  else '0' :: '.' :: List.replicate (-x - 1).toNat '0' ++ ds

/-- A signed decimal number. -/
def render (l : Layout) (negative : Bool) (d : Decimal) : List Char :=
  sign negative ++ l.place d

end Layout

/-- **The stored form of a finite double.** It has the fewest digits that read back, stands in
place below `10 ^ 16`, and shows by `.0` that it is no integer. -/
def storedLayout : Layout := ⟨16, ['.', '0']⟩

/-- The stored form of `m * 2 ^ q`. -/
def storedDigits (negative : Bool) (m : Nat) (q : Int) : List Char :=
  storedLayout.render negative (if m = 0 then ⟨0, 0⟩ else Decimal.shortest m q)

end LineCalc
