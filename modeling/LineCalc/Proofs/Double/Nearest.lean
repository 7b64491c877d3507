import LineCalc.Proofs.Double.Bits
/-!
# LineCalc — the nearest double to a quotient

`Double.nearestBits n d` finds an exponent from two logarithms and rounds the quotient at it. Three
facts make it usable: the exponent is the one that the quotient's size asks for (`isExponent`), and
there is one only; the bits depend on the quotient, not on how it is written
(`nearestBits_eq_of_cross`); and a number that is a double is its own nearest
(`nearestBits_exact`). At both ends the bits are told by the size alone.
-/

namespace LineCalc

namespace Double

open Power

variable {n d n' d' : Nat} {e e' q q' : Int}

/-! ## Sizes -/

/-- Whether `n / d` is at least `2 ^ e`. -/
def Reaches (n d : Nat) (e : Int) : Prop :=
  d * two e.toNat ≤ n * two (-e).toNat

/-- Powers of two may be moved from one side to the other. -/
theorem reaches_iff {s t : Nat} (h : (t : Int) - s = e) :
    Reaches n d e ↔ d * two t ≤ n * two s := by
  obtain ⟨k, ht, hs⟩ : ∃ k, t = e.toNat + k ∧ s = (-e).toNat + k :=
    ⟨min t s, by omega, by omega⟩
  rw [Reaches, ht, hs, two_add, two_add, ← Nat.mul_assoc, ← Nat.mul_assoc]
  exact (Nat.mul_le_mul_right_iff (two_pos k)).symm

/-- What reaches a power reaches every smaller one. -/
theorem Reaches.mono (h : Reaches n d e) (he : e' ≤ e) : Reaches n d e' := by
  have hshift : (e.toNat : Int) - ((-e).toNat + (e - e').toNat : Nat) = e' := by omega
  rw [reaches_iff hshift]
  exact Nat.le_trans h (Nat.mul_le_mul_left n (two_le_two (Nat.le_add_right _ _)))

/-- The size is that of the quotient. -/
theorem reaches_congr (hd : 0 < d) (hd' : 0 < d') (h : n * d' = n' * d) :
    Reaches n d e ↔ Reaches n' d' e := by
  have hleft : d * two e.toNat * d' = d' * two e.toNat * d := by
    rw [Nat.mul_right_comm, Nat.mul_comm d d', Nat.mul_right_comm]
  have hright : n * two (-e).toNat * d' = n' * two (-e).toNat * d := by
    rw [Nat.mul_right_comm, h, Nat.mul_right_comm]
  rw [Reaches, Reaches, ← Nat.mul_le_mul_right_iff hd', hleft, hright, Nat.mul_le_mul_right_iff hd]

/-- The two logarithms bound the quotient from below. -/
theorem reaches_log2 (hn : n ≠ 0) : Reaches n d ((n.log2 : Int) - d.log2 - 1) := by
  have hshift : (n.log2 : Int) - (d.log2 + 1 : Nat) = (n.log2 : Int) - d.log2 - 1 := by omega
  have hlow : two n.log2 ≤ n := Nat.log2_self_le hn
  have hhigh : d ≤ two (d.log2 + 1) := Nat.le_of_lt Nat.lt_log2_self
  rw [reaches_iff hshift, Nat.mul_comm n]
  exact Nat.mul_le_mul hhigh hlow

/-- The two logarithms bound the quotient from above. -/
theorem not_reaches_log2 (hd : d ≠ 0) : ¬Reaches n d ((n.log2 : Int) - d.log2 + 1) := by
  have hshift : ((n.log2 + 1 : Nat) : Int) - d.log2 = (n.log2 : Int) - d.log2 + 1 := by omega
  have hlow : two d.log2 ≤ d := Nat.log2_self_le hd
  have hhigh : n < two (n.log2 + 1) := Nat.lt_log2_self
  rw [reaches_iff hshift, Nat.not_le, Nat.mul_comm d]
  exact Nat.mul_lt_mul_of_lt_of_le hhigh hlow (Nat.pos_of_ne_zero hd)

/-! ## The exponent -/

/-- The exponent that the size of a quotient asks for: at it the significand has at most 53 bits,
and fewer at the smallest one only. -/
structure IsExponent (n d : Nat) (q : Int) : Prop where
  ge : -1074 ≤ q
  fits : ¬Reaches n d (q + 53)
  smallest_or_full : q = -1074 ∨ Reaches n d (q + 52)

/-- **There is one exponent only.** Of two, the larger would not be the smallest, and the quotient
would be both above and below a power between them. -/
theorem IsExponent.unique (h : IsExponent n d q) (h' : IsExponent n d q') : q = q' := by
  have key : ∀ {p p' : Int}, IsExponent n d p → IsExponent n d p' → ¬p < p' := by
    intro p p' hp hp' hlt
    have hge := hp.ge
    rcases hp'.smallest_or_full with hsmall | hfull
    · omega
    · exact hp.fits (hfull.mono (by omega))
  have hnot := key h h'
  have hnot' := key h' h
  omega

/-- The exponent is that of the quotient. -/
theorem IsExponent.congr (hd : 0 < d) (hd' : 0 < d') (h : n * d' = n' * d)
    (hq : IsExponent n d q) : IsExponent n' d' q :=
  ⟨hq.ge, mt (reaches_congr hd hd' h).2 hq.fits,
    hq.smallest_or_full.imp_right (reaches_congr hd hd' h).1⟩

/-- **`exponentOf` finds it.** -/
theorem isExponent (hn : n ≠ 0) (hd : 0 < d) : IsExponent n d (exponentOf n d) := by
  have hlow : Reaches n d ((n.log2 : Int) - d.log2 - 1) := reaches_log2 hn
  have hhigh : ¬Reaches n d ((n.log2 : Int) - d.log2 + 1) := not_reaches_log2 (Nat.ne_of_gt hd)
  -- the test asks whether 53 bits hold the significand at the smaller of two exponents
  have hguess (g : Int) :
      n * two (-g).toNat < d * two g.toNat * two 53 ↔ ¬Reaches n d (g + 53) := by
    have hshift : ((g.toNat + 53 : Nat) : Int) - (-g).toNat = g + 53 := by omega
    rw [reaches_iff hshift, Nat.not_le, two_add, Nat.mul_assoc]
  rw [exponentOf]
  split
  · next h =>
    refine ⟨by omega, (hguess _).1 h, ?_⟩
    rcases Int.le_total ((n.log2 : Int) - d.log2 - 53) (-1074) with hle | hle
    · exact .inl (by omega)
    · exact .inr (hlow.mono (by omega))
  · next h =>
    have hreach := Classical.not_not.1 (mt (hguess _).2 h)
    exact ⟨by omega, fun hr => hhigh (hr.mono (by omega)), .inr (hreach.mono (by omega))⟩

/-! ## Rounding -/

/-- A factor common to both sides is of no account. -/
theorem roundDiv_mul_right {k : Nat} (hk : 0 < k) : roundDiv (n * k) (d * k) = roundDiv n d := by
  have hrest : 2 * (n % d * k) = 2 * (n % d) * k := (Nat.mul_assoc 2 _ k).symm
  have hequal : 2 * (n % d) * k = d * k ↔ 2 * (n % d) = d :=
    ⟨Nat.eq_of_mul_eq_mul_right hk, fun h => by rw [h]⟩
  simp only [roundDiv, Nat.mul_div_mul_right _ _ hk, Nat.mul_mod_mul_right, hrest, hequal,
    Nat.mul_lt_mul_right hk]

/-- Rounding depends on the quotient alone. -/
theorem roundDiv_eq_of_cross (hd : 0 < d) (hd' : 0 < d') (h : n * d' = n' * d) :
    roundDiv n d = roundDiv n' d' := by
  rw [← roundDiv_mul_right hd', h, Nat.mul_comm d, roundDiv_mul_right hd]

/-- A whole number is rounded to itself. -/
theorem roundDiv_exact {m : Nat} (hd : 0 < d) : roundDiv (m * d) d = m := by
  rw [roundDiv, Nat.mul_mod_left, if_pos (.inl (by omega)), Nat.mul_div_cancel m hd]

/-- Below one half, nothing is left. -/
theorem roundDiv_small (h : 2 * n < d) : roundDiv n d = 0 := by
  have hlt : n < d := by omega
  rw [roundDiv, Nat.mod_eq_of_lt hlt, if_pos (.inl h), Nat.div_eq_of_lt hlt]

/-- Rounding does not fall below a whole number that the quotient reaches. -/
theorem le_roundDiv {m : Nat} (hd : 0 < d) (h : m * d ≤ n) : m ≤ roundDiv n d := by
  have hdiv : m ≤ n / d := (Nat.le_div_iff_mul_le hd).2 h
  rw [roundDiv]
  split
  · exact hdiv
  · exact Nat.le_succ_of_le hdiv

/-- Nor does it rise above one that the quotient does not pass. -/
theorem roundDiv_le {m : Nat} (hd : 0 < d) (h : n ≤ m * d) : roundDiv n d ≤ m := by
  rcases Nat.eq_or_lt_of_le h with heq | hlt
  · rw [heq, roundDiv_exact hd]
  · have hdiv : n / d < m := (Nat.div_lt_iff_lt_mul hd).2 hlt
    rw [roundDiv]
    split
    · exact Nat.le_of_lt hdiv
    · exact hdiv

/-! ## The nearest double -/

/-- The bits, from any exponent that the size asks for. -/
theorem nearestBits_of_isExponent (hn : n ≠ 0) (hd : 0 < d) (hq : IsExponent n d q) :
    nearestBits n d
      = min (pack (roundDiv (n * two (-q).toNat) (d * two q.toNat)) q) infinityBits := by
  rw [nearestBits, if_neg hn, (isExponent hn hd).unique hq]

/-- **The nearest double depends on the quotient alone.** -/
theorem nearestBits_eq_of_cross (hd : 0 < d) (hd' : 0 < d') (h : n * d' = n' * d) :
    nearestBits n d = nearestBits n' d' := by
  by_cases hn : n = 0
  · have hn' : n' = 0 := by
      rw [hn, Nat.zero_mul] at h
      exact (Nat.mul_eq_zero.1 h.symm).resolve_right (Nat.ne_of_gt hd)
    rw [hn, hn', nearestBits, nearestBits, if_pos rfl, if_pos rfl]
  · have hn' : n' ≠ 0 := by
      rintro rfl
      rw [Nat.zero_mul] at h
      exact (Nat.mul_eq_zero.1 h).elim hn (Nat.ne_of_gt hd')
    have hq := isExponent hn hd
    have hround : roundDiv (n * two (-exponentOf n d).toNat) (d * two (exponentOf n d).toNat)
        = roundDiv (n' * two (-exponentOf n d).toNat) (d' * two (exponentOf n d).toNat) := by
      refine roundDiv_eq_of_cross (Nat.mul_pos hd (two_pos _)) (Nat.mul_pos hd' (two_pos _)) ?_
      rw [Nat.mul_mul_mul_comm, h, Nat.mul_mul_mul_comm]
    rw [nearestBits_of_isExponent hn hd hq, nearestBits_of_isExponent hn' hd' (hq.congr hd hd' h),
      hround]

/-- The bits of a finite double are below those of the infinities. -/
theorem IsCanonical.pack_lt {m : Nat} (h : IsCanonical m q) : pack m q < infinityBits := by
  have hm := h.significand_lt
  have h53 : two 53 = two 52 + two 52 := rfl
  have hexponent : (q + 1074).toNat * two 52 ≤ 2045 * two 52 :=
    Nat.mul_le_mul_right _ (by have := h.exponent_le; omega)
  have hinfinity : infinityBits = 2047 * two 52 := rfl
  rw [pack]
  omega

/-- **A double is its own nearest.** -/
theorem nearestBits_exact {m : Nat} (hm : m ≠ 0) (h : IsCanonical m q) :
    nearestBits (m * two q.toNat) (two (-q).toNat) = pack m q := by
  have hpos : 0 < two (-q).toNat * two q.toNat := Nat.mul_pos (two_pos _) (two_pos _)
  have hunit : m * two q.toNat * two (-q).toNat = m * (two (-q).toNat * two q.toNat) := by
    rw [Nat.mul_assoc, Nat.mul_comm (two q.toNat)]
  have hreach : ∀ b : Nat, Reaches (m * two q.toNat) (two (-q).toNat) (q + b) ↔ two b ≤ m := by
    intro b
    have hshift : ((q.toNat + b : Nat) : Int) - (-q).toNat = q + b := by omega
    rw [reaches_iff hshift, hunit, two_add, ← Nat.mul_assoc, Nat.mul_comm m]
    exact Nat.mul_le_mul_left_iff hpos
  -- so the size of the quotient is that of the significand, moved by the exponent
  have hq : IsExponent (m * two q.toNat) (two (-q).toNat) q :=
    ⟨h.exponent_ge, mt (hreach 53).1 (Nat.not_le.2 h.significand_lt),
      h.smallest_or_full.imp_right (hreach 52).2⟩
  rw [nearestBits_of_isExponent (Nat.mul_ne_zero hm (Nat.ne_of_gt (two_pos _))) (two_pos _) hq,
    hunit, roundDiv_exact hpos]
  exact Nat.min_eq_left (Nat.le_of_lt h.pack_lt)

/-- **Past the largest double there is only an infinity.** The exponent is one that no double has,
and the significand at it is full. -/
theorem nearestBits_huge (hd : 0 < d) (h : Reaches n d 1024) : nearestBits n d = infinityBits := by
  have hn : n ≠ 0 := by
    rintro rfl
    rw [Reaches, Nat.zero_mul] at h
    have := Nat.mul_pos hd (two_pos (1024 : Int).toNat)
    omega
  have hq := isExponent hn hd
  generalize exponentOf n d = q at hq
  have hlarge : 971 < q := by
    rcases Int.lt_or_le 971 q with hlt | hle
    · exact hlt
    · exact absurd (h.mono (by omega)) hq.fits
  have hfull : Reaches n d (q + 52) := hq.smallest_or_full.resolve_left (by omega)
  have hround : two 52 ≤ roundDiv (n * two (-q).toNat) (d * two q.toNat) := by
    have hshift : ((q.toNat + 52 : Nat) : Int) - (-q).toNat = q + 52 := by omega
    refine le_roundDiv (Nat.mul_pos hd (two_pos _)) ?_
    rw [reaches_iff hshift, two_add] at hfull
    rwa [Nat.mul_comm (two 52), Nat.mul_assoc]
  have hexponent : 2046 * two 52 ≤ (q + 1074).toNat * two 52 :=
    Nat.mul_le_mul_right _ (by omega)
  have hinfinity : infinityBits = 2047 * two 52 := rfl
  rw [nearestBits_of_isExponent hn hd hq, pack]
  omega

/-- The largest double. -/
def largest : Nat := (two 53 - 1) * two 971

/-- **An integer up to the largest double has a finite one next to it.** At the largest exponent the
significand is not carried past its field, and at a smaller one a carry leaves room. -/
theorem nearestBits_lt_infinityBits (h : n ≤ largest) : nearestBits n 1 < infinityBits := by
  have hinfinity : infinityBits = 2047 * two 52 := rfl
  have hone : 0 < two 52 := two_pos 52
  have h53 : two 53 = two 52 + two 52 := rfl
  by_cases hn : n = 0
  · rw [nearestBits, if_pos hn]
    omega
  have hq := isExponent hn Nat.one_pos
  generalize exponentOf n 1 = q at hq
  have hle : q ≤ 971 := by
    by_contra hgt
    have hfull : Reaches n 1 (q + 52) := hq.smallest_or_full.resolve_left (by omega)
    have hshift : ((1024 : Nat) : Int) - (0 : Nat) ≤ q + 52 := by omega
    have hreach : 1 * two 1024 ≤ n * two 0 := (reaches_iff rfl).1 (hfull.mono hshift)
    have hsize : two 1024 = two 53 * two 971 := two_add 53 971
    have hlargest : largest < two 53 * two 971 :=
      Nat.mul_lt_mul_of_pos_right (by omega) (two_pos 971)
    have hunit : n * two 0 = n := Nat.mul_one n
    omega
  have hpos : 0 < 1 * two q.toNat := Nat.mul_pos Nat.one_pos (two_pos _)
  have hpack : pack (roundDiv (n * two (-q).toNat) (1 * two q.toNat)) q < infinityBits := by
    rcases Int.lt_or_eq_of_le hle with hlt | rfl
    · have hfits := hq.fits
      have hshift : ((q.toNat + 53 : Nat) : Int) - (-q).toNat = q + 53 := by omega
      rw [reaches_iff hshift, Nat.not_le, two_add, ← Nat.mul_assoc] at hfits
      have hround : roundDiv (n * two (-q).toNat) (1 * two q.toNat) ≤ two 53 :=
        roundDiv_le hpos (by rw [Nat.mul_comm (two 53)]; exact Nat.le_of_lt hfits)
      have hexponent : (q + 1074).toNat * two 52 ≤ 2044 * two 52 :=
        Nat.mul_le_mul_right _ (by omega)
      rw [pack]
      omega
    · have hunit : n * two 0 = n := Nat.mul_one n
      have hround : roundDiv (n * two 0) (1 * two 971) ≤ two 53 - 1 := by
        refine roundDiv_le (Nat.mul_pos Nat.one_pos (two_pos 971)) ?_
        rw [hunit, Nat.one_mul]
        exact h
      have hdown : (-(971 : Int)).toNat = 0 := rfl
      have hup : (971 : Int).toNat = 971 := rfl
      have hexponent : ((971 : Int) + 1074).toNat = 2045 := rfl
      rw [pack, hdown, hup, hexponent]
      omega
  rw [nearestBits_of_isExponent hn Nat.one_pos hq]
  exact Nat.lt_of_le_of_lt (Nat.min_le_left _ _) hpack

/-- **Far below the smallest double there is only zero.** -/
theorem nearestBits_tiny (hd : 0 < d) (h : ¬Reaches n d (-1075)) : nearestBits n d = 0 := by
  by_cases hn : n = 0
  · rw [nearestBits, if_pos hn]
  have hq : IsExponent n d (-1074) := ⟨by omega, fun hr => h (hr.mono (by omega)), .inl rfl⟩
  have hsmall : 2 * (n * two 1074) < d * two 0 := by
    have hunit : two 1075 = two 1074 * two 1 := two_add 1074 1
    have hone : two 1 = 2 := rfl
    have hshift : ((0 : Nat) : Int) - (1075 : Nat) = -1075 := rfl
    rw [reaches_iff hshift, hunit, hone, ← Nat.mul_assoc] at h
    omega
  have hbits : pack (roundDiv (n * two 1074) (d * two 0)) (-1074) = 0 := by
    rw [roundDiv_small hsmall, pack]
    rfl
  rw [nearestBits_of_isExponent hn hd hq]
  exact (congrArg (min · infinityBits) hbits).trans (Nat.zero_min _)

end Double

end LineCalc
