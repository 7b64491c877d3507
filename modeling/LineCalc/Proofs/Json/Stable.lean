import LineCalc.Proofs.Json.Display
import LineCalc.Proofs.Json.Integers
import LineCalc.Proofs.Json.RoundTrip
import Mathlib.Data.Nat.Digits.Defs
/-!
# LineCalc — values that were read are written and read alike

What the reader makes of any text can be read once it is written, as its integers are short enough
(`brings_isReadable`). And it stays the same, because the reader leaves no two halves of a pair side
by side (`isApart_joinPieces`), which is all that could change (`brings_isStable`). Only a text that
holds stand-ins itself, or pairs that make one, is an exception, since a stand-in cannot be told
from the half that it stands for; `IsStandInFree` leaves those texts out. The plain text of a stable
value does not change either (`IsStable.joined_display`).
-/

namespace LineCalc

/-! ## Integers -/

/-- Digits spell a number of no more digits. -/
theorem Numeral.length_digits_natOf_le {ds : List Char} (hne : ds ≠ [])
    (h : ∀ c ∈ ds, Text.isAsciiDigit c = true) : (Layout.digits (natOf ds)).length ≤ ds.length :=
  Nat.toDigits_length 10 (natOf ds) ds.length (List.length_pos_iff.2 hne) (natOf_lt h)

namespace Json

/-- **Every value that is read is readable.** -/
theorem brings_isReadable :
    Brings (fun _ => True) (fun _ => True) (fun _ => True) IsReadable where
  malformed := trivial
  suffix _ _ := trivial
  name _ _ := trivial
  plain _ hv := by
    cases hv with
    | null | bool b | float x => exact trivial
    | int hrun hne hlength hvalue =>
      rw [IsReadable, hvalue]
      exact (Numeral.length_digits_natOf_le hne hrun.digit).trans hlength
  refusal _ _ := trivial
  string _ := trivial
  array h := itemsReadable_iff.2 h
  object h := membersReadable_iff.2 fun m hm => (h m (Entries.mem_of_mem_ofList hm)).2

end Json

/-! ## Halves apart -/

namespace Text

/-- Whether no two halves of a pair stand side by side in a text. -/
def IsApart (cs : List Char) : Prop :=
  cs.IsChain fun a b =>
    (isHighSurrogate (codePoint a) && isLowSurrogate (codePoint b)) = false

/-- **A text with its halves apart stays as it is.** -/
theorem joinHalves_of_isApart {cs : List Char} (h : IsApart cs) : joinHalves cs = cs := by
  fun_induction joinHalves cs with
  | case1 a b rest hpair ih =>
    rw [(List.isChain_cons_cons.1 h).1] at hpair
    cases hpair
  | case2 a b rest hpair ih => rw [ih (List.isChain_cons_cons.1 h).2]
  | case3 => rfl

/-- So it comes back as it is. -/
theorem joined_of_isApart {s : String} (h : IsApart s.toList) : joined s = s := by
  rw [joined, joinHalves_of_isApart h, String.ofList_toList]

theorem isSurrogate_codePoint_of_lt {c : Char} (h : c.toNat < 0xD800) :
    isSurrogate (codePoint c) = false := by
  rw [Bool.eq_false_iff, ne_eq, isSurrogate_iff]
  unfold codePoint
  split <;> omega

/-- A character past the first 65536 that is no stand-in is no half. -/
theorem isSurrogate_codePoint_ofNat {n : Nat} (hge : 0x10000 ≤ n) (hlt : n < 0x110000)
    (hstandIn : isSurrogate (n - standInOffset) = false) :
    isSurrogate (codePoint (Char.ofNat n)) = false := by
  have hcode : (Char.ofNat n).toNat = n := toNat_charOfNat (.inr ⟨by omega, hlt⟩)
  rw [codePoint, hcode, hstandIn, if_neg Bool.false_ne_true, Bool.eq_false_iff, ne_eq,
    isSurrogate_iff]
  omega

end Text

namespace Json

open Text

/-- The first halves of the pairs that make a stand-in. -/
def standInHalves : List Nat := [0xDBB6, 0xDBB7]

/-- Whether a piece of a string neither is a stand-in nor makes one with the next. -/
def Piece.IsStandInFree : Piece → Prop
  | char c => isSurrogate (codePoint c) = false
  | unit n => n < 0x10000 ∧ n ∉ standInHalves

/-- The character of a pair is no half then. -/
theorem isSurrogate_codePoint_pairCode {n m : Nat} (hhigh : isHighSurrogate n = true)
    (hlow : isLowSurrogate m = true) (hn : n ∉ standInHalves) :
    isSurrogate (codePoint (Char.ofNat (pairCode n m))) = false := by
  simp only [isHighSurrogate, isLowSurrogate, Bool.and_eq_true, decide_eq_true_eq] at hhigh hlow
  simp only [standInHalves, List.mem_cons, List.not_mem_nil, or_false, not_or] at hn
  refine isSurrogate_codePoint_ofNat ?_ ?_ (Bool.eq_false_iff.2 (mt isSurrogate_iff.1 ?_))
  · unfold pairCode
    omega
  · unfold pairCode
    omega
  · unfold pairCode standInOffset
    omega

theorem isLowSurrogate_of_isSurrogate {n : Nat} (h : isSurrogate n = false) :
    isLowSurrogate n = false :=
  (Bool.or_eq_false_iff.1 h).2

theorem isHighSurrogate_of_isSurrogate {n : Nat} (h : isSurrogate n = false) :
    isHighSurrogate n = false :=
  (Bool.or_eq_false_iff.1 h).1

/-- The pieces of a text start it with a second half only if they start with one. -/
theorem isLowSurrogate_of_head_joinPieces {ps : List Piece} (h : ∀ p ∈ ps, p.IsStandInFree)
    (hfirst : ∀ n, ps.head? = some (.unit n) → isLowSurrogate n = false) :
    ∀ c ∈ (joinPieces ps).head?, isLowSurrogate (codePoint c) = false := by
  intro c hc
  unfold joinPieces at hc
  split at hc
  · cases hc
  · cases hc
    exact isLowSurrogate_of_isSurrogate (h _ (.head _))
  · next n m rest =>
    split at hc
    · next hpair =>
      have hcode : Char.ofNat (pairCode n m) = c := Option.some.inj hc
      obtain ⟨hhigh, hlow⟩ := Bool.and_eq_true_iff.1 hpair
      rw [← hcode]
      exact isLowSurrogate_of_isSurrogate
        (isSurrogate_codePoint_pairCode hhigh hlow (h _ (.head _)).2)
    · have hunit : ofUnit n = c := Option.some.inj hc
      rw [← hunit, codePoint_ofUnit (h _ (.head _)).1]
      exact hfirst n rfl
  · next n rest _ =>
    have hunit : ofUnit n = c := Option.some.inj hc
    rw [← hunit, codePoint_ofUnit (h _ (.head _)).1]
    exact hfirst n rfl

/-- **The reader leaves no two halves of a pair side by side.** -/
theorem isApart_joinPieces {ps : List Piece} (h : ∀ p ∈ ps, p.IsStandInFree) :
    IsApart (joinPieces ps) := by
  have hcons : ∀ {c : Char} {cs : List Char}, isHighSurrogate (codePoint c) = false →
      IsApart cs → IsApart (c :: cs) := by
    intro c cs hc hcs
    exact List.isChain_cons.2 ⟨fun d _ => by rw [hc]; rfl, hcs⟩
  fun_induction joinPieces ps with
  | case1 => exact List.isChain_nil
  | case2 c rest ih =>
    obtain ⟨hc, hrest⟩ := List.forall_mem_cons.1 h
    exact hcons (isHighSurrogate_of_isSurrogate hc) (ih hrest)
  | case3 n m rest hpair ih =>
    obtain ⟨hn, hm, hrest⟩ := (List.forall_mem_cons.1 h).imp_right List.forall_mem_cons.1
    obtain ⟨hhigh, hlow⟩ := Bool.and_eq_true_iff.1 hpair
    exact hcons (isHighSurrogate_of_isSurrogate (isSurrogate_codePoint_pairCode hhigh hlow hn.2))
      (ih hrest)
  | case4 n m rest hpair ih =>
    obtain ⟨hn, hrest⟩ := List.forall_mem_cons.1 h
    refine List.isChain_cons.2 ⟨fun c hc => ?_, ih hrest⟩
    rw [codePoint_ofUnit hn.1]
    -- a first half has no second half behind it here, so what follows starts with none
    by_cases hhigh : isHighSurrogate n = true
    · have hlow : isLowSurrogate m = false := by
        rw [hhigh, Bool.true_and, Bool.not_eq_true] at hpair
        exact hpair
      rw [isLowSurrogate_of_head_joinPieces hrest ?_ c hc, Bool.and_false]
      rintro k ⟨⟩
      exact hlow
    · rw [Bool.eq_false_iff.2 hhigh, Bool.false_and]
  | case5 n rest hunit ih =>
    obtain ⟨hn, hrest⟩ := List.forall_mem_cons.1 h
    refine List.isChain_cons.2 ⟨fun c hc => ?_, ih hrest⟩
    rw [isLowSurrogate_of_head_joinPieces hrest ?_ c hc, Bool.and_false]
    intro m hm
    obtain ⟨tail, rfl⟩ := List.head?_eq_some_iff.1 hm
    exact absurd rfl (hunit m tail)

/-! ## Texts without stand-ins -/

/-- Whether neither a stand-in is in a text, nor the escape of a first half that may make one. -/
structure IsStandInFree (cs : List Char) : Prop where
  char : ∀ c ∈ cs, isSurrogate (codePoint c) = false
  unit : ∀ a b c d n, ['\\', 'u', a, b, c, d] <:+: cs → hexUnit? a b c d = some n →
    n ∉ standInHalves

variable {cs rest : List Char}

theorem IsStandInFree.of_suffix (h : IsStandInFree cs) (hrest : rest <:+ cs) :
    IsStandInFree rest where
  char c hc := h.char c (hrest.subset hc)
  unit a b c d n hpart := h.unit a b c d n (hpart.trans hrest.isInfix)

theorem hexValue?_lt {c : Char} {n : Nat} (h : hexValue? c = some n) : n < 16 := by
  unfold hexValue? at h
  split at h
  · next hdigit =>
    have hrange := isAsciiDigit_iff.1 hdigit
    cases h
    omega
  · split at h
    · next hlower =>
      have hrange : c.toNat ≤ 'f'.toNat := hlower.2
      have hlast : 'f'.toNat = 102 := rfl
      cases h
      omega
    · split at h
      · next hupper =>
        have hrange : c.toNat ≤ 'F'.toNat := hupper.2
        have hlast : 'F'.toNat = 70 := rfl
        cases h
        omega
      · cases h

theorem hexUnit?_lt {a b c d : Char} {n : Nat} (h : hexUnit? a b c d = some n) : n < 0x10000 := by
  simp only [hexUnit?, bind, Option.bind_eq_some_iff] at h
  obtain ⟨k₁, h₁, k₂, h₂, k₃, h₃, k₄, h₄, hn⟩ := h
  cases hn
  have := hexValue?_lt h₁
  have := hexValue?_lt h₂
  have := hexValue?_lt h₃
  have := hexValue?_lt h₄
  omega

/-- No letter behind a backslash stands for a half. -/
theorem isSurrogate_of_unescape? {e c : Char} (h : unescape? e = some c) :
    isSurrogate (codePoint c) = false := by
  unfold unescape? at h
  split at h
  · next hself =>
    cases h
    rcases hself with rfl | rfl | rfl <;> exact isSurrogate_codePoint_of_lt (by decide)
  · repeat' split at h
    all_goals cases h
    all_goals exact isSurrogate_codePoint_of_lt (by decide)

/-- **The pieces of strings in such a text.** -/
theorem isStandInFree_of_pieces? {ps : List Piece} (hcs : IsStandInFree cs)
    (h : pieces? cs = some (ps, rest)) : ∀ p ∈ ps, p.IsStandInFree := by
  fun_induction pieces? cs generalizing ps with
  | case1 => cases h
  | case2 tail =>
    cases h
    exact List.forall_mem_nil _
  | case3 a b c d tail ih =>
    simp only [bind, Option.bind_eq_some_iff] at h
    obtain ⟨n, hn, ⟨ps, rest⟩, hpieces, heq⟩ := h
    cases heq
    have htail : tail <:+ '\\' :: 'u' :: a :: b :: c :: d :: tail := ⟨['\\', 'u', a, b, c, d], rfl⟩
    exact List.forall_mem_cons.2 ⟨⟨hexUnit?_lt hn, hcs.unit a b c d n ⟨[], tail, rfl⟩ hn⟩,
      ih (hcs.of_suffix htail) hpieces⟩
  | case4 e tail hu ih =>
    simp only [bind, Option.bind_eq_some_iff] at h
    obtain ⟨c, hc, ⟨ps, rest⟩, hpieces, heq⟩ := h
    cases heq
    have htail : tail <:+ '\\' :: e :: tail := ⟨['\\', e], rfl⟩
    exact List.forall_mem_cons.2 ⟨isSurrogate_of_unescape? hc, ih (hcs.of_suffix htail) hpieces⟩
  | case5 => cases h
  | case6 c tail hquote hunit hescape hplain ih =>
    simp only [bind, Option.bind_eq_some_iff] at h
    obtain ⟨⟨ps, rest⟩, hpieces, heq⟩ := h
    cases heq
    exact List.forall_mem_cons.2 ⟨hcs.char c (.head _),
      ih (hcs.of_suffix (List.suffix_cons _ _)) hpieces⟩

/-- Whether nothing in a value changes when it is written and read: its strings have their halves
apart, and no two members have one name. -/
inductive IsStable : Json → Prop where
  | null : IsStable null
  | bool (b : Bool) : IsStable (bool b)
  | int (n : Int) : IsStable (int n)
  | float (x : Float) : IsStable (float x)
  | string {s : String} (h : joined s = s) : IsStable (string s)
  | array {items : List Json} (h : ∀ v ∈ items, IsStable v) : IsStable (array items)
  | object {members : List (String × Json)} (hnodup : (Entries.names members).Nodup)
      (hname : ∀ m ∈ members, joined m.1 = m.1) (hvalue : ∀ m ∈ members, IsStable m.2) :
      IsStable (object members)

/-- **A stable value stays as it is.** -/
theorem IsStable.reread_eq {v : Json} (h : v.IsStable) : v.reread = v := by
  induction h with
  | null | bool b | int n | float x => rfl
  | string h => exact congrArg Json.string h
  | @array items h ih =>
    have hitems : items.map reread = items := by
      conv => rhs; rw [← List.map_id items]
      exact List.map_congr_left ih
    rw [reread, rereadItems_eq_map, hitems]
  | @object members hnodup hname hvalue ih =>
    have hmembers : members.map (fun m => (joined m.1, m.2.reread)) = members := by
      conv => rhs; rw [← List.map_id members]
      exact List.map_congr_left fun m hm => Prod.ext (hname m hm) (ih m hm)
    rw [reread, rereadMembers_eq_map, hmembers, Entries.ofList_of_nodup hnodup]

/-- **And so does its plain text**, since all but strings can be shown. -/
theorem IsStable.joined_display {v : Json} (h : v.IsStable) : joined v.display = v.display := by
  have hshown : ∀ v : Json, joined v.displayInner = v.displayInner := fun v =>
    joined_of_holdsNoHigh ((isShown_displayInner v).mono fun _ => isHighSurrogate_of_isPrintable)
  cases h with
  | string h => exact h
  | _ => exact hshown _

/-- **Every value that is read in a text without stand-ins is stable.** -/
theorem brings_isStable :
    Brings (fun _ => True) IsStandInFree (fun s => joined s = s) IsStable where
  malformed := trivial
  suffix := IsStandInFree.of_suffix
  name hcs h := by
    unfold readString at h
    split at h
    · next ps tail hpieces =>
      cases h
      refine joined_of_isApart ?_
      rw [String.toList_ofList]
      exact isApart_joinPieces (isStandInFree_of_pieces? hcs hpieces)
    · cases h
  plain _ hv := by
    cases hv with
    | null => exact .null
    | bool b => exact .bool b
    | int => exact .int _
    | float x => exact .float x
  refusal _ _ := trivial
  string := .string
  array := .array
  object {members} h := .object (Entries.nodup_ofList members)
    (fun m hm => (h m (Entries.mem_of_mem_ofList hm)).1)
    fun m hm => (h m (Entries.mem_of_mem_ofList hm)).2

end Json

end LineCalc
