import LineCalc.Json.Reader
import LineCalc.Json.Writer
import LineCalc.Proofs.Decimal.Shortest
/-!
# LineCalc — numbers written are numbers read

A stored number is laid out in one of five ways, and the reader of JSON takes each apart again: into
the digits before the point, those after it, and the exponent. What it makes of them is a decimal
number that need not be the one that was laid out, since zeros may have passed from the exponent to
the digits; but it has the same nearest double (`readNumber_place`). With the digits of a double
that is the double itself (`readNumber_stored`).
-/

namespace LineCalc

/-! ## Runs of digits -/

namespace Layout

/-- The digits of a number are ASCII. -/
theorem isAsciiDigit_of_mem_digits {n : Nat} {c : Char} (h : c ∈ digits n) :
    Text.isAsciiDigit c = true :=
  Text.isAsciiDigit_of_mem_toDigits h

theorem digits_ne_nil (n : Nat) : digits n ≠ [] :=
  Nat.toDigits_ne_nil

/-- **Digits do not start with a zero**, unless there is nothing else. -/
theorem head?_digits {n : Nat} (h : n ≠ 0) : (digits n).head? ≠ some '0' := by
  induction n using Nat.strongRecOn with
  | ind n ih =>
    by_cases hsmall : n < 10
    · have hcases : ∀ n < 10, n ≠ 0 → (digits n).head? ≠ some '0' := by decide
      exact hcases n hsmall h
    · have hsplit : digits n = digits (n / 10) ++ [Nat.digitChar (n % 10)] :=
        Nat.toDigits_of_base_le (by decide) (by omega)
      have hhead := ih (n / 10) (by omega) (by omega)
      obtain ⟨c, cs, hcs⟩ := List.exists_cons_of_ne_nil (digits_ne_nil (n / 10))
      rw [hcs] at hhead
      rwa [hsplit, hcs]

end Layout

namespace Numeral

variable {ds es rest : List Char}

/-- Digits are split off where no digit follows. -/
theorem splitDigits_append (hds : ∀ c ∈ ds, Text.isAsciiDigit c = true)
    (hrest : ∀ c ∈ rest.head?, Text.isAsciiDigit c = false) :
    splitDigits (ds ++ rest) = (ds, rest) := by
  rw [splitDigits, List.takeWhile_append_of_pos hds, List.dropWhile_append_of_pos hds]
  cases rest with
  | nil => simp
  | cons c cs =>
    have hc := hrest c rfl
    simp [hc]

/-- The digits of a number spell it. -/
theorem natOf_digits (n : Nat) : natOf (Layout.digits n) = n :=
  Nat.ofDigitChars_toDigits (by decide) (by decide)

/-- Zeros behind the digits make powers of ten. -/
theorem natOf_append_zeros (k : Nat) : natOf (ds ++ List.replicate k '0') = natOf ds * Power.ten k := by
  rw [natOf, Nat.ofDigitChars_append, Nat.ofDigitChars_replicate_zero, Nat.mul_comm]
  rfl

/-- Zeros before the digits are of no account. -/
theorem natOf_zeros_append (k : Nat) : natOf (List.replicate k '0' ++ ds) = natOf ds := by
  rw [natOf, Nat.ofDigitChars_append, Nat.ofDigitChars_replicate_zero, Nat.mul_zero]
  rfl

end Numeral

namespace Json

variable {cs ds es rest : List Char}

/-! ## The parts of a number -/

/-- Whether a text ends here, or goes on with what may follow a value inside another one. -/
def IsBoundary (rest : List Char) : Prop :=
  ∀ c ∈ rest.head?, c = ',' ∨ c = ']' ∨ c = '\x7d'

theorem isBoundary_nil : IsBoundary [] := by
  intro c hc
  cases hc

theorem isBoundary_cons {c : Char} (h : c = ',' ∨ c = ']' ∨ c = '\x7d') : IsBoundary (c :: rest) := by
  rintro _ ⟨⟩
  exact h

/-- No digit follows a number. -/
theorem IsBoundary.no_digit (h : IsBoundary rest) :
    ∀ c ∈ rest.head?, Text.isAsciiDigit c = false := by
  intro c hc
  rcases h c hc with rfl | rfl | rfl <;> decide

/-- Whole digits are a single zero, or do not start with one. -/
theorem splitWhole_append (hds : ∀ c ∈ ds, Text.isAsciiDigit c = true)
    (hrest : ∀ c ∈ rest.head?, Text.isAsciiDigit c = false)
    (hzero : ds.head? = some '0' → ds = ['0']) : splitWhole (ds ++ rest) = (ds, rest) := by
  by_cases h : ds.head? = some '0'
  · rw [hzero h]
    rfl
  · rw [splitWhole.eq_def]
    split
    · next tail heq =>
      cases ds with
      | nil =>
        rw [List.nil_append] at heq
        exact absurd (hrest '0' (by rw [heq]; rfl)) (by decide)
      | cons c ds =>
        rw [List.cons_append, List.cons.injEq] at heq
        exact absurd (congrArg some heq.1) h
    · exact Numeral.splitDigits_append hds hrest

/-- A point with digits after it. -/
theorem splitPoint_append (hne : ds ≠ []) (hds : ∀ c ∈ ds, Text.isAsciiDigit c = true)
    (hrest : ∀ c ∈ rest.head?, Text.isAsciiDigit c = false) :
    splitPoint ('.' :: (ds ++ rest)) = (ds, rest) := by
  simp only [splitPoint, Numeral.splitDigits_append hds hrest, List.isEmpty_iff, if_neg hne]

/-- No point. -/
theorem splitPoint_of_head (h : ∀ c ∈ rest.head?, c ≠ '.') : splitPoint rest = ([], rest) := by
  rw [splitPoint.eq_def]
  split
  · exact absurd rfl (h '.' rfl)
  · rfl

/-- No exponent. -/
theorem splitPower_of_head (h : ∀ c ∈ rest.head?, c ≠ 'e' ∧ c ≠ 'E') :
    splitPower rest = (none, rest) := by
  cases rest with
  | nil => rfl
  | cons c rest =>
    have hc := h c rfl
    rw [splitPower, if_neg (by simp [hc.1, hc.2])]

/-- **An exponent is read as it was laid out.** -/
theorem splitPower_exponentText (x : Int) (hrest : ∀ c ∈ rest.head?, Text.isAsciiDigit c = false) :
    splitPower (Layout.exponentText x ++ rest) = (some x, rest) := by
  obtain ⟨ds, htext, hdigits, hne, hvalue⟩ : ∃ ds, Layout.exponentText x
      = 'e' :: (if x < 0 then '-' else '+') :: ds ∧ (∀ c ∈ ds, Text.isAsciiDigit c = true)
        ∧ ds ≠ [] ∧ Numeral.natOf ds = x.natAbs := by
    refine ⟨_, rfl, ?_⟩
    split
    · refine ⟨?_, List.cons_ne_nil _ _, ?_⟩
      · intro c hc
        rcases List.mem_cons.1 hc with rfl | hc
        · rfl
        · exact Layout.isAsciiDigit_of_mem_digits hc
      · exact (Numeral.natOf_zeros_append 1).trans (Numeral.natOf_digits _)
    · exact ⟨fun c => Layout.isAsciiDigit_of_mem_digits, Layout.digits_ne_nil _,
        Numeral.natOf_digits _⟩
  have hsplit := Numeral.splitDigits_append hdigits hrest
  have hexponent : Numeral.splitExponent ('e' :: (if x < 0 then '-' else '+') :: (ds ++ rest))
      = some (x, rest) := by
    by_cases hx : x < 0
    · simp only [if_pos hx, Numeral.splitExponent, Numeral.splitSign, hsplit, hvalue]
      simp only [List.isEmpty_iff, if_neg hne, true_or, if_true, Option.some.injEq, Prod.mk.injEq,
        and_true]
      omega
    · simp only [if_neg hx, Numeral.splitExponent, Numeral.splitSign, hsplit, hvalue]
      simp only [List.isEmpty_iff, if_neg hne, true_or, if_true, Option.some.injEq, Prod.mk.injEq,
        and_true]
      simp only [Bool.false_eq_true, if_false]
      omega
  rw [htext, List.cons_append, List.cons_append, splitPower]
  simp only [hexponent, true_or, if_true]

/-! ## Integers -/

/-- **An integer is read as it was written**, if its digits are not too many. -/
theorem readNumber_digits {n : Nat} (negative : Bool) (hlen : (Layout.digits n).length ≤ Numeral.maxDigits)
    (hrest : IsBoundary rest) :
    readNumber negative (Layout.digits n ++ rest)
      = .ok (.int (if negative then -(n : Int) else n), rest) := by
  have hzero : (Layout.digits n).head? = some '0' → Layout.digits n = ['0'] := by
    intro h
    by_cases hn : n = 0
    · rw [hn]
      rfl
    · exact absurd h (Layout.head?_digits hn)
  have hwhole : splitWhole (Layout.digits n ++ rest) = (Layout.digits n, rest) :=
    splitWhole_append (fun c => Layout.isAsciiDigit_of_mem_digits) hrest.no_digit hzero
  have hpoint : splitPoint rest = ([], rest) :=
    splitPoint_of_head fun c hc => by rcases hrest c hc with rfl | rfl | rfl <;> decide
  have hpower : splitPower rest = (none, rest) :=
    splitPower_of_head fun c hc => by rcases hrest c hc with rfl | rfl | rfl <;> decide
  simp only [readNumber, hwhole, hpoint, hpower, List.isEmpty_iff, if_neg (Layout.digits_ne_nil n)]
  simp only [Numeral.natOf_digits, List.isEmpty_nil, Option.isNone_none, Bool.and_self, if_true,
    if_neg (Nat.not_lt.2 hlen)]

/-! ## Doubles -/

/-- What has a fraction or an exponent is read as a double. -/
theorem readNumber_real {whole fraction cs₁ cs₂ : List Char} {power : Option Int} (negative : Bool)
    (hwhole : splitWhole cs = (whole, cs₁)) (hne : whole ≠ [])
    (hpoint : splitPoint cs₁ = (fraction, cs₂)) (hpower : splitPower cs₂ = (power, rest))
    (hreal : fraction ≠ [] ∨ power ≠ none) :
    readNumber negative cs = .ok (.float
      (Decimal.toFloat negative (Numeral.decimal whole fraction (power.getD 0))), rest) := by
  have hnot : ¬((fraction.isEmpty && power.isNone) = true) := by
    rw [Bool.and_eq_true, List.isEmpty_iff, Option.isNone_iff_eq_none]
    rcases hreal with h | h
    · exact fun hboth => h hboth.1
    · exact fun hboth => h hboth.2
  simp only [readNumber, hwhole, hpoint, hpower, List.isEmpty_iff, if_neg hne, if_neg hnot]

/-! ### The ways of the layout

Each is read to the decimal number that its digits and its exponent make. -/

variable {whole fraction : List Char} {x : Int} (negative : Bool)

/-- A single digit with an exponent. -/
theorem readNumber_digit_exponent {first : Char} (hfirst : Text.isAsciiDigit first = true)
    (hrest : IsBoundary rest) :
    readNumber negative (first :: Layout.exponentText x ++ rest)
      = .ok (.float (Decimal.toFloat negative (Numeral.decimal [first] [] x)), rest) := by
  have hwhole : splitWhole ([first] ++ (Layout.exponentText x ++ rest))
      = ([first], Layout.exponentText x ++ rest) := by
    refine splitWhole_append ?_ ?_ fun h => ?_
    · intro c hc
      rwa [List.mem_singleton.1 hc]
    · rintro _ ⟨⟩
      rfl
    · rw [Option.some.inj h]
  have hpoint : splitPoint (Layout.exponentText x ++ rest) = ([], Layout.exponentText x ++ rest) := by
    refine splitPoint_of_head ?_
    rintro _ ⟨⟩
    decide
  have happend : first :: Layout.exponentText x ++ rest
      = [first] ++ (Layout.exponentText x ++ rest) := rfl
  rw [happend, readNumber_real negative hwhole (List.cons_ne_nil _ _) hpoint
    (splitPower_exponentText x hrest.no_digit) (.inr (by simp)), Option.getD_some]

/-- Digits after a point, and an exponent. -/
theorem readNumber_point_exponent {first : Char} (hfirst : Text.isAsciiDigit first = true)
    (hne : fraction ≠ []) (hfraction : ∀ c ∈ fraction, Text.isAsciiDigit c = true)
    (hrest : IsBoundary rest) :
    readNumber negative (first :: '.' :: fraction ++ Layout.exponentText x ++ rest)
      = .ok (.float (Decimal.toFloat negative (Numeral.decimal [first] fraction x)), rest) := by
  have hwhole : splitWhole ([first] ++ '.' :: (fraction ++ (Layout.exponentText x ++ rest)))
      = ([first], '.' :: (fraction ++ (Layout.exponentText x ++ rest))) := by
    refine splitWhole_append ?_ ?_ fun h => ?_
    · intro c hc
      rwa [List.mem_singleton.1 hc]
    · rintro _ ⟨⟩
      rfl
    · rw [Option.some.inj h]
  have hpoint : splitPoint ('.' :: (fraction ++ (Layout.exponentText x ++ rest)))
      = (fraction, Layout.exponentText x ++ rest) := by
    refine splitPoint_append hne hfraction ?_
    rintro _ ⟨⟩
    rfl
  have happend : first :: '.' :: fraction ++ Layout.exponentText x ++ rest
      = [first] ++ '.' :: (fraction ++ (Layout.exponentText x ++ rest)) := by
    simp
  rw [happend, readNumber_real negative hwhole (List.cons_ne_nil _ _) hpoint
    (splitPower_exponentText x hrest.no_digit) (.inl hne), Option.getD_some]

/-- Digits around a point, and no exponent. -/
theorem readNumber_point (hwhole : ∀ c ∈ whole, Text.isAsciiDigit c = true) (hne : whole ≠ [])
    (hzero : whole.head? = some '0' → whole = ['0'])
    (hfraction : ∀ c ∈ fraction, Text.isAsciiDigit c = true) (hne' : fraction ≠ [])
    (hrest : IsBoundary rest) :
    readNumber negative (whole ++ '.' :: fraction ++ rest)
      = .ok (.float (Decimal.toFloat negative (Numeral.decimal whole fraction 0)), rest) := by
  have hsplit : splitWhole (whole ++ '.' :: (fraction ++ rest))
      = (whole, '.' :: (fraction ++ rest)) := by
    refine splitWhole_append hwhole ?_ hzero
    rintro _ ⟨⟩
    rfl
  have hpower : splitPower rest = (none, rest) :=
    splitPower_of_head fun c hc => by rcases hrest c hc with rfl | rfl | rfl <;> decide
  rw [List.append_assoc, List.cons_append, readNumber_real negative hsplit hne
    (splitPoint_append hne' hfraction hrest.no_digit) hpower (.inl hne'), Option.getD_none]

/-- A whole number in place: zeros have passed to its digits, with one more behind the point. -/
theorem toFloat_decimal_zeros (k : Nat) :
    Decimal.toFloat negative (Numeral.decimal (ds ++ List.replicate k '0') ['0'] 0)
      = Decimal.toFloat negative ⟨Numeral.natOf ds, k⟩ := by
  have hzeros : ds ++ List.replicate k '0' ++ ['0'] = ds ++ List.replicate (k + 1) '0' := by
    rw [List.append_assoc, List.replicate_succ']
  have hplaces : (0 : Int) - (['0'] : List Char).length + (k + 1 : Nat) = k := by
    simp only [List.length_singleton]
    omega
  rw [Numeral.decimal, hzeros, Numeral.natOf_append_zeros, Decimal.toFloat,
    Decimal.nearestBits_mul_ten, hplaces, Decimal.toFloat]

/-- Zeros are digits. -/
theorem isAsciiDigit_of_mem_zeros {k : Nat} {c : Char} (h : c ∈ List.replicate k '0') :
    Text.isAsciiDigit c = true := by
  rw [List.eq_of_mem_replicate h]
  rfl

section

/-! The digits of a number are `first :: others`, and `e` is the power of ten of the last. -/

variable {first : Char} {others : List Char} {c : Nat} {e : Int}
variable (hvalue : Numeral.natOf (first :: others) = c)
variable (hascii : ∀ d ∈ first :: others, Text.isAsciiDigit d = true)
include hvalue hascii

/-- With an exponent: the first digit stands before the point, if there are others. -/
theorem readNumber_with_exponent (hx : e + (first :: others).length - 1 = x)
    (hrest : IsBoundary rest) :
    readNumber negative ((match first :: others with
        | [] => []
        | d :: [] => d :: Layout.exponentText x
        | d :: ds => d :: '.' :: ds ++ Layout.exponentText x) ++ rest)
      = .ok (.float (Decimal.toFloat negative ⟨c, e⟩), rest) := by
  have hdecimal : Numeral.decimal [first] others x = ⟨c, e⟩ := by
    rw [List.length_cons] at hx
    simp only [Numeral.decimal, List.singleton_append, hvalue, Decimal.mk.injEq, true_and]
    omega
  have hfirst := hascii first List.mem_cons_self
  rw [← hdecimal]
  cases others with
  | nil => exact readNumber_digit_exponent negative hfirst hrest
  | cons second others =>
    exact readNumber_point_exponent negative hfirst (List.cons_ne_nil _ _)
      (fun d hd => hascii d (List.mem_cons_of_mem _ hd)) hrest

/-- A whole number: zeros stand for the exponent. -/
theorem readNumber_whole (he : 0 ≤ e) (hzero : first = '0' → others = [] ∧ e = 0)
    (hrest : IsBoundary rest) :
    readNumber negative (first :: others ++ List.replicate e.toNat '0' ++ '.' :: ['0'] ++ rest)
      = .ok (.float (Decimal.toFloat negative ⟨c, e⟩), rest) := by
  have hexponent : (e.toNat : Int) = e := Int.toNat_of_nonneg he
  have hdigits : ∀ d ∈ first :: others ++ List.replicate e.toNat '0', Text.isAsciiDigit d = true :=
    List.forall_mem_append.2 ⟨hascii, fun d => isAsciiDigit_of_mem_zeros⟩
  have hhead : (first :: others ++ List.replicate e.toNat '0').head? = some '0' →
      first :: others ++ List.replicate e.toNat '0' = ['0'] := by
    intro h
    obtain ⟨rfl, rfl⟩ := hzero (Option.some.inj h)
    rw [Option.some.inj h]
    rfl
  have hmark : ∀ d ∈ ['0'], Text.isAsciiDigit d = true :=
    fun d hd => isAsciiDigit_of_mem_zeros (k := 1) hd
  rw [readNumber_point negative hdigits (List.cons_ne_nil _ _) hhead hmark (List.cons_ne_nil _ _)
    hrest, toFloat_decimal_zeros, hvalue, hexponent]

/-- The point stands among the digits. -/
theorem readNumber_among (hx : e + (first :: others).length - 1 = x) (hnegative : e < 0)
    (hnonneg : 0 ≤ x) (hfirst : first ≠ '0') (hrest : IsBoundary rest) :
    readNumber negative ((first :: others).take (x + 1).toNat
        ++ '.' :: (first :: others).drop (x + 1).toNat ++ rest)
      = .ok (.float (Decimal.toFloat negative ⟨c, e⟩), rest) := by
  obtain ⟨k, rfl⟩ := Int.eq_ofNat_of_zero_le hnonneg
  rw [List.length_cons] at hx
  have hcut : ((k : Int) + 1).toNat = k + 1 := by omega
  have hlength : ((others.drop k).length : Int) = -e := by
    rw [List.length_drop]
    omega
  have hdecimal : Numeral.decimal (first :: others.take k) (others.drop k) 0 = ⟨c, e⟩ := by
    simp only [Numeral.decimal, List.cons_append, List.take_append_drop, hvalue, Decimal.mk.injEq,
      true_and]
    omega
  have hbefore : ∀ d ∈ first :: others.take k, Text.isAsciiDigit d = true := by
    intro d hd
    rw [← List.take_succ_cons] at hd
    exact hascii d (List.mem_of_mem_take hd)
  have hbehind : ∀ d ∈ others.drop k, Text.isAsciiDigit d = true :=
    fun d hd => hascii d (List.mem_cons_of_mem _ (List.mem_of_mem_drop hd))
  have hne : others.drop k ≠ [] := by
    intro h
    rw [h, List.length_nil] at hlength
    omega
  rw [hcut, ← hdecimal, List.take_succ_cons, List.drop_succ_cons]
  exact readNumber_point negative hbefore (List.cons_ne_nil _ _)
    (fun h => absurd (Option.some.inj h) hfirst) hbehind hne hrest

/-- Below one: zeros stand between the point and the digits. -/
theorem readNumber_below_one (hx : e + (first :: others).length - 1 = x) (hneg : x < 0)
    (hrest : IsBoundary rest) :
    readNumber negative ('0' :: '.' :: List.replicate (-x - 1).toNat '0' ++ first :: others ++ rest)
      = .ok (.float (Decimal.toFloat negative ⟨c, e⟩), rest) := by
  generalize hk : (-x - 1).toNat = k
  have hdecimal : Numeral.decimal ['0'] (List.replicate k '0' ++ first :: others) 0 = ⟨c, e⟩ := by
    have hzeros : ['0'] ++ (List.replicate k '0' ++ first :: others)
        = List.replicate (k + 1) '0' ++ first :: others := rfl
    rw [List.length_cons] at hx
    simp only [Numeral.decimal, hzeros, Numeral.natOf_zeros_append, hvalue, Decimal.mk.injEq,
      true_and, List.length_append, List.length_replicate, List.length_cons]
    omega
  have hdigits : ∀ d ∈ List.replicate k '0' ++ first :: others, Text.isAsciiDigit d = true :=
    List.forall_mem_append.2 ⟨fun d => isAsciiDigit_of_mem_zeros, hascii⟩
  rw [← hdecimal]
  exact readNumber_point negative (fun d hd => isAsciiDigit_of_mem_zeros (k := 1) hd)
    (List.cons_ne_nil _ _) (fun _ => rfl) hdigits
    (List.append_ne_nil_of_right_ne_nil _ (List.cons_ne_nil _ _)) hrest

end

/-- **What is laid out is read**, as the same double. -/
theorem readNumber_place {d : Decimal} (hd : d.digits ≠ 0 ∨ d = ⟨0, 0⟩) (hrest : IsBoundary rest) :
    readNumber negative (storedLayout.place d ++ rest)
      = .ok (.float (Decimal.toFloat negative d), rest) := by
  obtain ⟨c, e⟩ := d
  have hvalue : Numeral.natOf (Layout.digits c) = c := Numeral.natOf_digits c
  have hascii : ∀ d ∈ Layout.digits c, Text.isAsciiDigit d = true :=
    fun d => Layout.isAsciiDigit_of_mem_digits
  have hzero : (Layout.digits c).head? ≠ some '0' ∨ Layout.digits c = ['0'] ∧ e = 0 := by
    rcases hd with h | h
    · exact .inl (Layout.head?_digits h)
    · cases h
      exact .inr ⟨rfl, rfl⟩
  obtain ⟨first, others, hds⟩ := List.exists_cons_of_ne_nil (Layout.digits_ne_nil c)
  rw [hds] at hvalue hascii hzero
  -- a leading zero is the whole number zero, the only one without digits of its own
  have hfirst : first = '0' → others = [] ∧ e = 0 := by
    rintro rfl
    rcases hzero with hzero | ⟨hzero, he⟩
    · exact absurd rfl hzero
    · exact ⟨(List.cons.inj hzero).2, he⟩
  simp only [Layout.place, hds]
  generalize hx : e + ((first :: others).length : Int) - 1 = x
  split
  · exact readNumber_with_exponent negative hvalue hascii hx hrest
  split
  · next he => exact readNumber_whole negative hvalue hascii he hfirst hrest
  next he =>
  have hnegative : e < 0 := Int.not_le.1 he
  split
  · next hnonneg =>
    exact readNumber_among negative hvalue hascii hx hnegative hnonneg
      (fun h => absurd (hfirst h).2 (Int.ne_of_lt hnegative)) hrest
  · next hneg => exact readNumber_below_one negative hvalue hascii hx (Int.not_le.1 hneg) hrest

/-- The decimal number that a double is stored as. -/
theorem toFloat_stored {y : Float} {negative : Bool} {m : Nat} {q : Int}
    (h : Double.ofFloat y = .finite negative m q) :
    Decimal.toFloat negative (if m = 0 then ⟨0, 0⟩ else Decimal.shortest m q) = y := by
  obtain ⟨hcanonical, hbits⟩ := Double.eq_signed_pack h
  rw [Decimal.toFloat, ← hbits]
  congr 1
  split
  · next hm =>
    subst hm
    have hq : q = -1074 := hcanonical.smallest_or_full.resolve_right
      (Nat.not_le.2 (Power.two_pos 52))
    rw [hq]
    rfl
  · next hm => exact Decimal.nearestBits_shortest hm hcanonical

/-- **The stored form of a finite double is read as that double.** -/
theorem readNumber_stored {y : Float} {negative : Bool} {m : Nat} {q : Int}
    (h : Double.ofFloat y = .finite negative m q) (hrest : IsBoundary rest) :
    readNumber negative (storedLayout.place (if m = 0 then ⟨0, 0⟩ else Decimal.shortest m q) ++ rest)
      = .ok (.float y, rest) := by
  have hdigits : (if m = 0 then ⟨0, 0⟩ else Decimal.shortest m q : Decimal).digits ≠ 0
      ∨ (if m = 0 then ⟨0, 0⟩ else Decimal.shortest m q : Decimal) = ⟨0, 0⟩ := by
    split
    · exact .inr rfl
    · next hm => exact .inl (Decimal.digits_shortest_ne_zero hm (Double.eq_signed_pack h).1)
  rw [readNumber_place negative hdigits hrest, toFloat_stored h]

end Json

end LineCalc
