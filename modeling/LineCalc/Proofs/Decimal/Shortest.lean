import LineCalc.Proofs.Double.Nearest
/-!
# LineCalc — the digits of a double read back

`Decimal.shortest` finds the few digits that a double is stored with. Whichever of its candidates it
takes, and also when none passes and the exact expansion stands in, the digits read back to the same
double (`nearestBits_shortest`). Dropping zeros at the end changes nothing, since the nearest double
to a decimal number depends on the number alone (`nearestBits_mul_ten`); the two shortcuts of
`Decimal.nearestBits`, which judge a number by its size, agree with that (`nearestBits_eq`).
-/

namespace LineCalc

namespace Decimal

open Power

/-! ## The nearest double to a decimal number -/

/-- **Size is told rightly**: the shortcuts give the bits that rounding gives. -/
theorem nearestBits_eq (d : Decimal) :
    d.nearestBits
      = Double.nearestBits (d.digits * ten d.exponent.toNat) (ten (-d.exponent).toNat) := by
  obtain ⟨c, e⟩ := d
  simp only [nearestBits]
  by_cases hzero : c = 0
  · rw [if_pos hzero, hzero, Nat.zero_mul, Double.nearestBits, if_pos rfl]
  by_cases hhuge : 310 < e
  -- one digit is enough to reach the power of two past all doubles
  · have hone : (-e).toNat = 0 := by omega
    have hpower : two 1024 ≤ ten 309 := by decide +kernel
    have hten : ten 309 ≤ ten e.toNat := ten_le_ten (by omega)
    have hdigits : 1 * ten e.toNat ≤ c * ten e.toNat :=
      Nat.mul_le_mul_right _ (Nat.pos_of_ne_zero hzero)
    have hreach : Double.Reaches (c * ten e.toNat) (ten 0) 1024 := by
      have hunit : ten 0 = 1 := rfl
      have hunit' : two 0 = 1 := rfl
      have hshift : ((1024 : Nat) : Int) - (0 : Nat) = 1024 := rfl
      rw [Double.reaches_iff hshift, hunit, hunit']
      omega
    rw [if_neg hzero, if_pos hhuge, hone, Double.nearestBits_huge (ten_pos 0) hreach]
  by_cases htiny : (c.log2 : Int) + 1081 < -3 * e
  -- each power of ten takes three bits at least, more than the digits have
  · have hpower : two (c.log2 + 1 + 1075) ≤ ten (-e).toNat :=
      Nat.le_trans (two_le_two (by omega)) (two_le_ten (-e).toNat)
    have hreach : ¬Double.Reaches (c * ten 0) (ten (-e).toNat) (-1075) := by
      have hunit : ten 0 = 1 := rfl
      have hunit' : two 0 = 1 := rfl
      have hshift : ((0 : Nat) : Int) - (1075 : Nat) = -1075 := rfl
      have hdigits : c * two 1075 < two (c.log2 + 1) * two 1075 :=
        Nat.mul_lt_mul_of_pos_right Nat.lt_log2_self (two_pos 1075)
      rw [two_add] at hpower
      rw [Double.reaches_iff hshift, hunit, hunit', Nat.mul_one, Nat.mul_one]
      omega
    have hwhole : e.toNat = 0 := by omega
    rw [if_neg hzero, if_neg hhuge, if_pos htiny, hwhole,
      Double.nearestBits_tiny (ten_pos _) hreach]
  · rw [if_neg hzero, if_neg hhuge, if_neg htiny]

/-- **Zeros may pass from the digits to the exponent.** -/
theorem nearestBits_mul_ten (c k : Nat) (e : Int) :
    nearestBits ⟨c * ten k, e⟩ = nearestBits ⟨c, e + k⟩ := by
  rw [nearestBits_eq, nearestBits_eq]
  refine Double.nearestBits_eq_of_cross (ten_pos _) (ten_pos _) ?_
  have hsum : k + e.toNat + (-(e + k)).toNat = (e + k).toNat + (-e).toNat := by omega
  calc c * ten k * ten e.toNat * ten (-(e + k)).toNat
      = c * ten (k + e.toNat + (-(e + k)).toNat) := by
        rw [ten_add, ten_add, Nat.mul_assoc c, Nat.mul_assoc c]
    _ = c * ten (e + k).toNat * ten (-e).toNat := by
        rw [hsum, ten_add, Nat.mul_assoc c]

/-! ## The candidates -/

/-- Dropping zeros changes nothing. -/
theorem nearestBits_strip (count : Nat) (d : Decimal) :
    (strip count d).nearestBits = d.nearestBits := by
  induction count generalizing d with
  | zero => rfl
  | succ count ih =>
    rw [strip]
    split
    · next h =>
      have hdigits : d.digits / 10 * ten 1 = d.digits :=
        Nat.div_mul_cancel (Nat.dvd_of_mod_eq_zero h.1)
      rw [ih]
      exact (nearestBits_mul_ten (d.digits / 10) 1 d.exponent).symm.trans (by rw [hdigits])
    · rfl

variable {m : Nat} {q : Int}

/-- What is taken on a grid has been read back. -/
theorem nearestBits_neighbour? {count : Nat} {d : Decimal} (h : neighbour? m q count = some d) :
    d.nearestBits = Double.pack m q := by
  simp only [neighbour?, decide_eq_true_eq] at h
  -- how the two candidates are found is of no account, since each is read back
  generalize magnitude m q - count = g at h
  generalize Double.roundDiv (onGrid m q g).1 (onGrid m q g).2 = near at h
  generalize (if near = (onGrid m q g).1 / (onGrid m q g).2 then near + 1
    else (onGrid m q g).1 / (onGrid m q g).2) = far at h
  split at h
  · next hnear =>
    cases h
    exact hnear
  · split at h
    · next hfar =>
      cases h
      exact hfar
    · cases h

/-- Every digit of a double makes the double. -/
theorem nearestBits_exact (hm : m ≠ 0) (h : Double.IsCanonical m q) :
    (exact m q).nearestBits = Double.pack m q := by
  rw [nearestBits_eq, ← Double.nearestBits_exact hm h]
  refine Double.nearestBits_eq_of_cross (ten_pos _) (two_pos _) ?_
  have hwhole : (min q 0).toNat = 0 := by omega
  have hplaces : (-(min q 0)).toNat = (-q).toNat := by omega
  have hone : ten 0 = 1 := rfl
  simp only [exact, hwhole, hplaces, hone, Nat.mul_one]
  rw [ten_eq, Nat.mul_assoc, Nat.mul_comm (five _)]

/-- **The digits that a double is stored with read back to it.** -/
theorem nearestBits_shortest (hm : m ≠ 0) (h : Double.IsCanonical m q) :
    (shortest m q).nearestBits = Double.pack m q := by
  unfold shortest
  split
  · next d hd =>
    obtain ⟨i, -, hi⟩ := List.exists_of_findSome?_eq_some hd
    rw [nearestBits_strip, nearestBits_neighbour? hi]
  · exact nearestBits_exact hm h

/-- Something other than zero is stored with a digit other than zero. -/
theorem digits_shortest_ne_zero (hm : m ≠ 0) (h : Double.IsCanonical m q) :
    (shortest m q).digits ≠ 0 := by
  intro hzero
  have hbits := nearestBits_shortest hm h
  rw [nearestBits, if_pos hzero, Double.pack] at hbits
  omega

end Decimal

end LineCalc
