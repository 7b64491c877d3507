/-!
# LineCalc — powers of natural numbers

Doubles are counted in powers of two, decimal numbers in powers of ten.
-/

namespace LineCalc

namespace Power

/-- `2 ^ k`. -/
def two (k : Nat) : Nat := Nat.pow 2 k

/-- `5 ^ k`. -/
def five (k : Nat) : Nat := Nat.pow 5 k

/-- `10 ^ k`. -/
def ten (k : Nat) : Nat := Nat.pow 10 k

/-- A power of two is positive. -/
theorem two_pos (k : Nat) : 0 < two k :=
  Nat.pow_pos (by decide)

/-- A power of ten is positive. -/
theorem ten_pos (k : Nat) : 0 < ten k :=
  Nat.pow_pos (by decide)

/-- Exponents add up. -/
theorem two_add (j k : Nat) : two (j + k) = two j * two k :=
  Nat.pow_add 2 j k

/-- Exponents add up. -/
theorem ten_add (j k : Nat) : ten (j + k) = ten j * ten k :=
  Nat.pow_add 10 j k

/-- A larger exponent makes a larger power. -/
theorem two_le_two {j k : Nat} (h : j ≤ k) : two j ≤ two k :=
  Nat.pow_le_pow_right (by decide) h

/-- A larger exponent makes a larger power. -/
theorem ten_le_ten {j k : Nat} (h : j ≤ k) : ten j ≤ ten k :=
  Nat.pow_le_pow_right (by decide) h

/-- Ten is two times five. -/
theorem ten_eq (k : Nat) : ten k = two k * five k :=
  Nat.mul_pow 2 5 k

/-- Ten is above eight, three doublings. -/
theorem two_le_ten (k : Nat) : two (3 * k) ≤ ten k := by
  have height : two (3 * k) = Nat.pow 8 k := Nat.pow_mul 2 3 k
  rw [height]
  exact Nat.pow_le_pow_left (by decide) k

end Power

end LineCalc
