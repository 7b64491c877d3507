import Mathlib
import LineCalc.Decimal.Numeral
/-!
# LineCalc — a double is its parts

A `Float` is 64 bits in which a number that is not one has a single form, and `Float.ofBits` makes it
from them again (`Float.ofBits_toBits`). So what `Double.ofFloat` says of a double is all there is to
it: each of the three kinds is rebuilt from its parts (`eq_nan`, `eq_infinity`, `eq_signed_pack`), and
what is not a number is one double only.
-/

namespace LineCalc

namespace Double

open Float.Model (Format)
open Float.Model.UnpackedFloat (unpackExponent unpackMantissa)

/-! ## The parts of a double -/

/-- The significands and exponents that doubles have: a significand fills its field, except at the
smallest exponent. -/
structure IsCanonical (m : Nat) (q : Int) : Prop where
  significand_lt : m < Power.two 53
  exponent_ge : -1074 ≤ q
  exponent_le : q ≤ 971
  smallest_or_full : q = -1074 ∨ Power.two 52 ≤ m

/-- The field of the fraction. -/
def fractionField (b : UInt64) : Nat := b.toNat % Power.two 52

/-- The field of the exponent. -/
def exponentField (b : UInt64) : Nat := b.toNat / Power.two 52 % Power.two 11

theorem fractionField_lt (b : UInt64) : fractionField b < Power.two 52 :=
  Nat.mod_lt _ (Power.two_pos 52)

theorem exponentField_lt (b : UInt64) : exponentField b < 2048 :=
  Nat.mod_lt _ (Power.two_pos 11)

/-- The bits are their fields. -/
theorem toNat_eq_fields (b : UInt64) :
    b.toNat = fractionField b + exponentField b * Power.two 52
      + if decide (Power.two 63 ≤ b.toNat) then Power.two 63 else 0 := by
  -- the fields are quotients and remainders by these three powers
  have h52 : Power.two 52 = 4503599627370496 := rfl
  have h63 : Power.two 63 = 9223372036854775808 := rfl
  have h11 : Power.two 11 = 2048 := rfl
  have hlt : b.toNat < 18446744073709551616 := b.toNat_lt
  simp only [fractionField, exponentField, h52, h63, h11, decide_eq_true_eq]
  split <;> omega

/-- **The kinds of doubles**, by the field of the exponent. -/
theorem ofBits_cases (b : UInt64) :
    (exponentField b = 2047 ∧ fractionField b = 0 ∧
        ofBits b = .infinite (decide (Power.two 63 ≤ b.toNat))) ∨
      (exponentField b = 2047 ∧ fractionField b ≠ 0 ∧ ofBits b = .nan) ∨
      (exponentField b = 0 ∧
        ofBits b = .finite (decide (Power.two 63 ≤ b.toNat)) (fractionField b) (-1074)) ∨
      (0 < exponentField b ∧ exponentField b < 2047 ∧
        ofBits b = .finite (decide (Power.two 63 ≤ b.toNat)) (Power.two 52 + fractionField b)
          ((exponentField b : Int) - 1075)) := by
  have hlt := exponentField_lt b
  have hofBits : ofBits b =
      if exponentField b = 2047 then
        (if fractionField b = 0 then .infinite (decide (Power.two 63 ≤ b.toNat)) else .nan)
      else if exponentField b = 0 then
        .finite (decide (Power.two 63 ≤ b.toNat)) (fractionField b) (-1074)
      else .finite (decide (Power.two 63 ≤ b.toNat)) (Power.two 52 + fractionField b)
        ((exponentField b : Int) - 1075) := rfl
  rw [hofBits]
  by_cases h2047 : exponentField b = 2047
  · by_cases hzero : fractionField b = 0
    · exact .inl ⟨h2047, hzero, by rw [if_pos h2047, if_pos hzero]⟩
    · exact .inr (.inl ⟨h2047, hzero, by rw [if_pos h2047, if_neg hzero]⟩)
  · by_cases h0 : exponentField b = 0
    · exact .inr (.inr (.inl ⟨h0, by rw [if_neg h2047, if_pos h0]⟩))
    · exact .inr (.inr (.inr ⟨by omega, by omega, by rw [if_neg h2047, if_neg h0]⟩))

/-- A double with the sign and the bits of `x` is `x`. -/
theorem signed_eq {x : Float} {negative : Bool} {bits : Nat}
    (h : x.toBits.toNat = bits + if negative then Power.two 63 else 0) :
    signed negative bits = x := by
  rw [signed, ← h, Nat.toUInt64_eq, UInt64.ofNat_toNat, Float.ofBits_toBits]

/-- **A finite double is its significand, its exponent and its sign.** -/
theorem eq_signed_pack {x : Float} {negative : Bool} {m : Nat} {q : Int}
    (h : ofFloat x = .finite negative m q) :
    IsCanonical m q ∧ signed negative (pack m q) = x := by
  have hfraction := fractionField_lt x.toBits
  have hfields := toNat_eq_fields x.toBits
  have h53 : Power.two 53 = Power.two 52 + Power.two 52 := rfl
  rw [ofFloat] at h
  rcases ofBits_cases x.toBits with ⟨-, -, hk⟩ | ⟨-, -, hk⟩ | ⟨he, hk⟩ | ⟨hpos, hlt, hk⟩ <;>
    rw [hk] at h <;> cases h
  -- at the smallest exponent the significand is the fraction
  · refine ⟨⟨by omega, by omega, by omega, .inl rfl⟩, signed_eq ?_⟩
    rw [he, Nat.zero_mul, Nat.add_zero] at hfields
    rw [pack]
    simpa using hfields
  -- elsewhere a leading one is added, which packing carries into the exponent
  · refine ⟨⟨by omega, by omega, by omega, .inr (Nat.le_add_right _ _)⟩, signed_eq ?_⟩
    have hexponent : ((exponentField x.toBits : Int) - 1075 + 1074).toNat
        = exponentField x.toBits - 1 := by omega
    have hcarry : exponentField x.toBits * Power.two 52
        = Power.two 52 + (exponentField x.toBits - 1) * Power.two 52 := by
      obtain ⟨k, hk⟩ := Nat.exists_eq_succ_of_ne_zero (Nat.ne_of_gt hpos)
      rw [hk, Nat.succ_mul, Nat.succ_sub_one, Nat.add_comm]
    rw [pack, hexponent]
    omega

/-- **There is one infinity of each sign.** -/
theorem eq_infinity {x : Float} {negative : Bool} (h : ofFloat x = .infinite negative) :
    signed negative infinityBits = x := by
  have hfields := toNat_eq_fields x.toBits
  rw [ofFloat] at h
  rcases ofBits_cases x.toBits with ⟨he, hf, hk⟩ | ⟨-, -, hk⟩ | ⟨-, hk⟩ | ⟨-, -, hk⟩ <;>
    rw [hk] at h <;> cases h
  refine signed_eq ?_
  rw [he, hf, Nat.zero_add] at hfields
  exact hfields

/-- The field of the exponent, as a bit vector. -/
theorem toNat_unpackExponent (b : UInt64) :
    (@unpackExponent Format.binary64 b.toBitVec).toNat = exponentField b := by
  rw [unpackExponent, BitVec.toNat_cast, BitVec.extractLsb_toNat, Nat.shiftRight_eq_div_pow]
  rfl

/-- The field of the fraction, as a bit vector. -/
theorem toNat_unpackMantissa (b : UInt64) :
    (@unpackMantissa Format.binary64 b.toBitVec).toNat = fractionField b := by
  rw [unpackMantissa, BitVec.toNat_cast, BitVec.extractLsb_toNat, Nat.shiftRight_zero]
  rfl

/-- **There is one double that is not a number.** -/
theorem eq_nan {x : Float} (h : ofFloat x = .nan) : signed false Numeral.nanBits = x := by
  rw [ofFloat] at h
  rcases ofBits_cases x.toBits with ⟨-, -, hk⟩ | ⟨he, hf, hk⟩ | ⟨-, hk⟩ | ⟨-, -, hk⟩ <;>
    rw [hk] at h <;> cases h
  have hpacked := x.toModel.valid.eq_packedNaN
    (BitVec.eq_of_toNat_eq ((toNat_unpackExponent x.toBits).trans he))
    (fun hzero => hf ((toNat_unpackMantissa x.toBits).symm.trans (congrArg BitVec.toNat hzero)))
  refine signed_eq ?_
  exact congrArg BitVec.toNat hpacked

end Double

end LineCalc
