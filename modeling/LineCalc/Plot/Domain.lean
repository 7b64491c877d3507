import LineCalc.Json.Display
/-!
# LineCalc — evenly spaced points

A domain is given by where it starts, where it stops, and a step. The count of its points is the
quotient of the distance by the step, rounded up, so that the stop is left out; a distance that is
lost in the quotient still makes one point. A stop below the start leaves no points, and a quotient
too far from zero, on either side, is refused. The second point is the start plus one step, and the
difference of the two, as it came out, spaces all later ones.
-/

namespace LineCalc

/-- Bounds and step of a domain. -/
structure Domain where
  start : Float
  stop : Float
  step : Float

/-- Why there are no such points. -/
inductive DomainError where
  | stepNotPositive (step : Float)
  | unbounded

namespace DomainError

/-- The wording of an error. -/
def message : DomainError → String
  | stepNotPositive step => "Plot step must be positive, got " ++ Json.floatDisplay step
  | unbounded => "Maximum allowed size exceeded"

end DomainError

namespace Domain

/-- From -10 up to 9, one by one. -/
def standard : Domain :=
  ⟨Decimal.toFloat true ⟨10, 0⟩, Decimal.toFloat false ⟨10, 0⟩, Decimal.toFloat false ⟨1, 0⟩⟩

/-- Whether a double is zero or below. What is not a number is neither. -/
def atMostZero (x : Float) : Bool :=
  match Double.ofFloat x with
  | .nan => false
  | .infinite negative => negative
  | .finite negative m _ => negative || m == 0

/-- Whether a double differs from zero. -/
def nonzero (x : Float) : Bool :=
  match Double.ofFloat x with
  | .finite _ m _ => m != 0
  | _ => true

/-- The longest list of points there is room for. -/
def maxCount : Nat := Power.two 60

/-- How far from zero the rounded quotient may lie: as far as a signed word of 64 bits reaches down.
The upper end is one past the word, where the count is lost. -/
def maxQuotient : Nat := Power.two 63

/-- How many points there are. -/
def count (d : Domain) : Except DomainError Nat :=
  let distance := d.stop - d.start
  match Double.ofFloat (distance / d.step) with
  | .finite negative m q =>
    if m = 0 ∧ nonzero distance then .ok (if negative then 0 else 1)
    else
      let n := Double.ceiling negative m q
      if maxQuotient < n.natAbs then .error .unbounded
      else if n = maxQuotient then .ok 0
      else if maxCount ≤ n.toNat then .error .unbounded
      else .ok n.toNat
  | _ => .error .unbounded

/-- The point with the number `i`. -/
def point (d : Domain) (i : Nat) : Float :=
  let second := d.start + d.step
  if i = 0 then d.start
  else if i = 1 then second
  else d.start + Double.nearest false i 1 * (second - d.start)

/-- **The points of a domain**, in order. -/
def points (d : Domain) : Except DomainError (List Float) :=
  if atMostZero d.step then .error (.stepNotPositive d.step)
  else do return (List.range (← d.count)).map d.point

end Domain

end LineCalc
