import LineCalc.Decimal.Numeral
/-!
# LineCalc — the arithmetic of expressions

Expressions are read over any type of values with the five binary operators, a sign change, and a
value for each plain literal. `Float` is the arithmetic that the calculator runs on: IEEE doubles,
where a division by zero is an infinity or not a number and nothing fails. A square is the product
of its base with itself, rounded once, and so the double nearest to it.
-/

namespace LineCalc

/-- The binary operators. -/
inductive Operator where
  | add
  | sub
  | mul
  | div
  | pow
deriving DecidableEq

namespace Operator

/-- The operator that a character writes. -/
def ofChar? : Char → Option Operator
  | '+' => some add
  | '-' => some sub
  | '*' => some mul
  | '/' => some div
  | '^' => some pow
  | _ => none

/-- Whether an operator is a sum or a difference: both bind alike, and can be signs. -/
def isAdditive : Operator → Bool
  | add => true
  | sub => true
  | _ => false

end Operator

/-- Values that expressions can be reckoned over. -/
class Arithmetic (V : Type) where
  /-- The value of a plain literal. -/
  ofLiteral : Literal → V
  /-- The value with the other sign. -/
  neg : V → V
  /-- The value of an operator on two operands. -/
  apply : Operator → V → V → V

namespace Arithmetic

/-- A value, with its sign changed if `negative`. -/
def signed {V : Type} [Arithmetic V] (negative : Bool) (v : V) : V :=
  if negative then neg v else v

end Arithmetic

namespace Double

/-- A power of doubles; with the exponent two, the square. -/
def power (a b : Float) : Float :=
  if b == nearest false 2 1 then a * a else Float.pow a b

end Double

/-- **IEEE doubles.** A literal is the nearest double. -/
instance : Arithmetic Float where
  ofLiteral n := Decimal.toFloat false ⟨n.coefficient, -(n.places : Int)⟩
  neg x := -x
  apply
    | .add, a, b => a + b
    | .sub, a, b => a - b
    | .mul, a, b => a * b
    | .div, a, b => a / b
    | .pow, a, b => Double.power a b

end LineCalc
