import LineCalc.Proofs.Double.Nearest
import LineCalc.Proofs.Json.Reading
import LineCalc.Proofs.Token.Lexer
/-!
# LineCalc — the integers that a text brings

An integer keeps all its digits until a double is wanted, and then one past the largest double has
none. A value `Fits` if all of its integers have one. What the reader makes of a text without long
runs of digits fits, and nothing but its form can make it refuse such a text (`read_of_isSafe`).
-/

namespace LineCalc

/-! ## Integers with a double -/

namespace Numeral

variable {ds : List Char}

/-- Digits spell a number that has no more of them. -/
theorem natOf_lt (h : ∀ c ∈ ds, Text.isAsciiDigit c = true) : natOf ds < Power.ten ds.length := by
  have key : ∀ (ds : List Char) (n : Nat), (∀ c ∈ ds, Text.isAsciiDigit c = true) →
      Nat.ofDigitChars 10 ds n < (n + 1) * Power.ten ds.length := by
    intro ds
    induction ds with
    | nil =>
      intro n _
      have hunit : Power.ten 0 = 1 := rfl
      rw [Nat.ofDigitChars_nil, List.length_nil, hunit]
      omega
    | cons c cs ih =>
      intro n h
      obtain ⟨hc, hcs⟩ := List.forall_mem_cons.1 h
      have hdigit : c.toNat - '0'.toNat ≤ 9 := by
        have hzero : '0'.toNat = 48 := rfl
        have hrange := Text.isAsciiDigit_iff.1 hc
        omega
      have hstep := ih (10 * n + (c.toNat - '0'.toNat)) hcs
      have hten : Power.ten (cs.length + 1) = Power.ten cs.length * 10 := Power.ten_add _ 1
      have hle : (10 * n + (c.toNat - '0'.toNat) + 1) * Power.ten cs.length
          ≤ (n + 1) * 10 * Power.ten cs.length := Nat.mul_le_mul_right _ (by omega)
      rw [Nat.ofDigitChars_cons, List.length_cons, hten]
      calc _ < _ := hstep
        _ ≤ _ := hle
        _ = _ := by rw [Nat.mul_assoc, Nat.mul_comm 10]
  have h0 := key ds 0 h
  rwa [Nat.zero_add, Nat.one_mul] at h0

/-- How many digits spell no integer past the largest double, whichever they are. -/
def safeDigits : Nat := 308

theorem ten_safeDigits_le : Power.ten safeDigits ≤ Double.largest := by
  decide +kernel

/-- **So few digits have a double**, with either sign. -/
theorem isSome_floatOfInt? {n : Int} (h : n.natAbs < Power.ten safeDigits) :
    (floatOfInt? n).isSome = true := by
  have hlt : Double.nearestBits n.natAbs 1 < Double.infinityBits :=
    Double.nearestBits_lt_infinityBits (Nat.le_trans (Nat.le_of_lt h) ten_safeDigits_le)
  rw [floatOfInt?, if_pos hlt]
  rfl

end Numeral

namespace Json

/-- Whether all integers in a value have a double. -/
inductive Fits : Json → Prop where
  | null : Fits null
  | bool (b : Bool) : Fits (bool b)
  | int {n : Int} (h : (Numeral.floatOfInt? n).isSome = true) : Fits (int n)
  | float (x : Float) : Fits (float x)
  | string (s : String) : Fits (string s)
  | array {items : List Json} (h : ∀ v ∈ items, Fits v) : Fits (array items)
  | object {members : List (String × Json)} (h : ∀ m ∈ members, Fits m.2) : Fits (object members)

/-- Whether no run of digits in a text is long. -/
def IsSafe (cs : List Char) : Prop :=
  ∀ ds, ds <:+: cs → (∀ c ∈ ds, Text.isAsciiDigit c = true) → ds.length ≤ Numeral.safeDigits

variable {cs rest : List Char}

theorem IsSafe.of_suffix (h : IsSafe cs) (hrest : rest <:+ cs) : IsSafe rest :=
  fun ds hds => h ds (hds.trans hrest.isInfix)

/-- Words and numbers of such a text fit. -/
theorem IsPlainValue.fits {v : Json} (hcs : IsSafe cs) (h : IsPlainValue cs v) : v.Fits := by
  cases h with
  | null => exact .null
  | bool b => exact .bool b
  | float x => exact .float x
  | int hrun hne hlength hvalue =>
    refine .int (Numeral.isSome_floatOfInt? ?_)
    rw [hvalue]
    exact Nat.lt_of_lt_of_le (Numeral.natOf_lt hrun.digit)
      (Power.ten_le_ten (hcs _ hrun.part hrun.digit))

theorem brings_fits : Brings (· = .malformed) IsSafe (fun _ => True) Fits where
  malformed := rfl
  suffix := IsSafe.of_suffix
  name _ _ := trivial
  plain hcs hv := hv.fits hcs
  refusal hcs he := by
    refine he.resolve_right fun ⟨ds, hrun, hlong⟩ => ?_
    have hsafe := hcs ds hrun.part hrun.digit
    have hmost : Numeral.safeDigits ≤ Numeral.maxDigits := by decide
    omega
  string _ := .string _
  array := .array
  object h := .object fun m hm => (h m (Entries.mem_of_mem_ofList hm)).2

/-- **What a text without long runs of digits is read as.** All integers in it have a double; and if
the text is refused, then for its form. -/
theorem read_of_isSafe (hcs : IsSafe cs) : Yields (· = .malformed) Fits (Json.read cs) :=
  brings_fits.read hcs

end Json

end LineCalc
