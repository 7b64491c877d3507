import LineCalc.Json.Reader
import LineCalc.Json.Writer
import LineCalc.Text.CharClass
/-!
# LineCalc — strings written are strings read

A string is written character by character and read piece by piece. Each character comes back from
its pieces, with one exception: the stand-ins of a first and a second half of a pair, side by side,
are written as the pair is, and so are read as the character that the pair makes up. `Text.joined`
is what a text becomes by that; it is the text itself where no first halves are
(`Text.joined_of_holdsNoHigh`).
-/

namespace LineCalc

namespace Text

/-! ## Halves of pairs -/

/-- A text in which two halves of a pair, side by side, have become one character. -/
def joinHalves : List Char → List Char
  | a :: b :: rest =>
    if isHighSurrogate (codePoint a) && isLowSurrogate (codePoint b) then
      Char.ofNat (pairCode (codePoint a) (codePoint b)) :: joinHalves rest
    else a :: joinHalves (b :: rest)
  | cs => cs

/-- A text as it is after it was written and read. -/
def joined (s : String) : String :=
  String.ofList (joinHalves s.toList)

/-- The two halves of a pair, side by side. -/
def halves : String :=
  String.ofList [ofUnit 0xD800, ofUnit 0xDC00]

/-- They come back as one character. -/
theorem joined_halves_ne : joined halves ≠ halves := by decide

/-- Whether no first half of a pair is in a text. -/
def HoldsNoHigh (s : String) : Prop :=
  ∀ c ∈ s.toList, isHighSurrogate (codePoint c) = false

instance : DecidablePred HoldsNoHigh := fun s =>
  decidable_of_iff (s.toList.all (fun c => ! isHighSurrogate (codePoint c)) = true)
    (by simp [HoldsNoHigh])

theorem joinHalves_of_no_high {cs : List Char}
    (h : ∀ c ∈ cs, isHighSurrogate (codePoint c) = false) : joinHalves cs = cs := by
  fun_induction joinHalves cs with
  | case1 a b rest hpair ih =>
    rw [h a List.mem_cons_self] at hpair
    cases hpair
  | case2 a b rest hpair ih => rw [ih fun c hc => h c (List.mem_cons_of_mem a hc)]
  | case3 => rfl

/-- **A text without first halves stays as it is.** -/
theorem joined_of_holdsNoHigh {s : String} (h : HoldsNoHigh s) : joined s = s := by
  rw [joined, joinHalves_of_no_high h, String.ofList_toList]

/-! ## Codes -/

variable {c : Char}

/-- A character that stands for no surrogate has its own code. -/
theorem codePoint_eq_toNat (h : isSurrogate (codePoint c) = false) : codePoint c = c.toNat := by
  unfold codePoint at h ⊢
  split
  · next hs => rw [if_pos hs, hs] at h; cases h
  · rfl

/-- A stand-in lies above its surrogate. -/
theorem toNat_of_isSurrogate (h : isSurrogate (codePoint c) = true) :
    c.toNat = codePoint c + standInOffset := by
  unfold codePoint at h ⊢
  split
  · next hs =>
    have := isSurrogate_iff.1 hs
    omega
  · next hs =>
    rw [if_neg hs] at h
    have hrange := isSurrogate_iff.1 h
    rcases c.valid with hv | ⟨hv, -⟩
    · exact absurd hv (by simp only [Char.toNat] at hrange; omega)
    · exact absurd hv (by simp only [Char.toNat] at hrange; omega)

/-- What can be shown is no half of a pair. -/
theorem isHighSurrogate_of_isPrintable (h : isPrintable c = true) :
    isHighSurrogate (codePoint c) = false := by
  refine Bool.eq_false_iff.2 fun hhigh => ?_
  have hsurrogate : isSurrogate (codePoint c) = true := by
    rw [isSurrogate, hhigh]
    rfl
  have hcode := toNat_of_isSurrogate hsurrogate
  have hlt := toNat_lt_of_isPrintable h
  rw [standInOffset] at hcode
  omega

/-- Codes end where characters do. -/
theorem codePoint_lt (c : Char) : codePoint c < 0x110000 := by
  have hrange : c.toNat < 0x110000 := by
    rcases c.valid with h | ⟨-, h⟩
    · exact Nat.lt_trans h (by decide)
    · exact h
  have hcode : codePoint c ≤ c.toNat := by
    unfold codePoint
    split <;> omega
  omega

/-- **Every character is that of its code.** -/
theorem ofUnit_codePoint (c : Char) : ofUnit (codePoint c) = c := by
  unfold ofUnit
  split
  · next hs => rw [← toNat_of_isSurrogate hs, Char.ofNat_toNat]
  · next hs => rw [codePoint_eq_toNat (Bool.eq_false_iff.2 hs), Char.ofNat_toNat]

end Text

namespace Json

open Text

variable {c : Char} {rest : List Char} {ps : List Piece}

/-! ## Pieces -/

/-- The first half of the pair for a code past the first 65536. -/
def highHalf (n : Nat) : Nat := 0xD800 + (n - 0x10000) / 0x400

/-- The second half. -/
def lowHalf (n : Nat) : Nat := 0xDC00 + (n - 0x10000) % 0x400

/-- **The halves make up the code.** -/
theorem halves_spec {n : Nat} (h : 0x10000 ≤ n) (h' : n < 0x110000) :
    isHighSurrogate (highHalf n) = true ∧ isLowSurrogate (lowHalf n) = true
      ∧ pairCode (highHalf n) (lowHalf n) = n := by
  have hhigh : 0xD800 ≤ highHalf n ∧ highHalf n < 0xDC00 := by
    unfold highHalf
    omega
  have hlow : 0xDC00 ≤ lowHalf n ∧ lowHalf n < 0xE000 := by
    unfold lowHalf
    omega
  refine ⟨by simpa [isHighSurrogate] using hhigh, by simpa [isLowSurrogate] using hlow, ?_⟩
  unfold pairCode highHalf lowHalf
  omega

/-- The pieces that a character is read in. -/
def charPieces (c : Char) : List Piece :=
  let n := codePoint c
  if 32 ≤ n ∧ n ≤ 126 ∨ n = 10 ∨ n = 13 ∨ n = 9 ∨ n = 8 ∨ n = 12 then [.char c]
  else if n < 0x10000 then [.unit n]
  else [.unit (highHalf n), .unit (lowHalf n)]

theorem hexValue?_digitChar {n : Nat} (h : n < 16) : hexValue? (Nat.digitChar n) = some n := by
  have hcases : ∀ n < 16, hexValue? (Nat.digitChar n) = some n := by decide
  exact hcases n h

/-- Four hexadecimal digits spell their unit. -/
theorem hexUnit?_unitText {n : Nat} (h : n < 0x10000) :
    hexUnit? (Nat.digitChar (n / 4096 % 16)) (Nat.digitChar (n / 256 % 16))
      (Nat.digitChar (n / 16 % 16)) (Nat.digitChar (n % 16)) = some n := by
  have hlow : ∀ k : Nat, k % 16 < 16 := fun k => Nat.mod_lt k (by decide)
  simp only [hexUnit?, hexValue?_digitChar (hlow _)]
  refine congrArg some ?_
  omega

/-- An escaped unit is read as a piece. -/
theorem pieces?_unitText {n : Nat} (h : n < 0x10000) :
    pieces? (unitText n ++ rest) = (pieces? rest).map fun p => (.unit n :: p.1, p.2) := by
  simp only [unitText, List.cons_append, List.nil_append]
  rw [pieces?.eq_def]
  simp only [hexUnit?_unitText h]
  cases pieces? rest <;> rfl

/-- An escaped character is read as a piece. -/
theorem pieces?_escape {e : Char} (he : e ≠ 'u') (hc : unescape? e = some c) :
    pieces? ('\\' :: e :: rest) = (pieces? rest).map fun p => (.char c :: p.1, p.2) := by
  rw [pieces?.eq_def]
  split
  · next h => cases h
  · next h => cases h
  · next h =>
    cases h
    exact absurd rfl he
  · next h =>
    cases h
    rw [hc]
    cases pieces? rest <;> rfl
  · next hslash h =>
    cases h
    exact absurd rfl (hslash e rest rfl)

/-- A character by itself is read as a piece. -/
theorem pieces?_plain (hquote : c ≠ '"') (hslash : c ≠ '\\') (hge : 32 ≤ c.toNat) :
    pieces? (c :: rest) = (pieces? rest).map fun p => (.char c :: p.1, p.2) := by
  rw [pieces?.eq_def]
  split
  · next h => cases h
  · next h =>
    cases h
    exact absurd rfl hquote
  · next h =>
    cases h
    exact absurd rfl hslash
  · next h =>
    cases h
    exact absurd rfl hslash
  · next h =>
    cases h
    rw [if_neg (by simp [hslash]; omega)]
    cases pieces? rest <;> rfl

/-- A character is told by a small code. -/
theorem eq_of_codePoint {n : Nat} (h : codePoint c = n) (hn : n < 0xD800) : c = Char.ofNat n := by
  have hnot : isSurrogate (codePoint c) = false := by
    rw [Bool.eq_false_iff, ne_eq, isSurrogate_iff]
    omega
  rw [← h, codePoint_eq_toNat hnot, Char.ofNat_toNat]

/-- **The text of a character is read in its pieces.** -/
theorem pieces?_charText (c : Char) (rest : List Char) :
    pieces? (charText c ++ rest) = (pieces? rest).map fun p => (charPieces c ++ p.1, p.2) := by
  have hshort {n : Nat} (hn : codePoint c = n)
      (h : 32 ≤ n ∧ n ≤ 126 ∨ n = 10 ∨ n = 13 ∨ n = 9 ∨ n = 8 ∨ n = 12) :
      charPieces c = [.char c] := by
    rw [charPieces, hn, if_pos h]
  -- one case for each way of writing: by an escape, by itself, or by its units
  simp only [charText]
  split
  · next h =>
    subst h
    exact pieces?_escape (by decide) rfl
  split
  · next h =>
    subst h
    exact pieces?_escape (by decide) rfl
  split
  · next hquote hslash hn =>
    have hcode : codePoint c = c.toNat := by
      refine codePoint_eq_toNat (Bool.eq_false_iff.2 fun hs => ?_)
      have := isSurrogate_iff.1 hs
      omega
    rw [hshort rfl (.inl hn)]
    exact pieces?_plain hquote hslash (by omega)
  split
  · next h =>
    subst h
    exact pieces?_escape (by decide) rfl
  split
  · next h =>
    subst h
    exact pieces?_escape (by decide) rfl
  split
  · next h =>
    subst h
    exact pieces?_escape (by decide) rfl
  split
  · next h =>
    rw [hshort h (by omega), eq_of_codePoint h (by decide)]
    exact pieces?_escape (by decide) rfl
  split
  · next h =>
    rw [hshort h (by omega), eq_of_codePoint h (by decide)]
    exact pieces?_escape (by decide) rfl
  next hn hnewline hreturn htab h8 h12 =>
  have hlong : ¬(32 ≤ codePoint c ∧ codePoint c ≤ 126 ∨ codePoint c = 10 ∨ codePoint c = 13
      ∨ codePoint c = 9 ∨ codePoint c = 8 ∨ codePoint c = 12) := by
    have h10 : codePoint c ≠ 10 := fun h => hnewline (eq_of_codePoint h (by decide))
    have h13 : codePoint c ≠ 13 := fun h => hreturn (eq_of_codePoint h (by decide))
    have h9 : codePoint c ≠ 9 := fun h => htab (eq_of_codePoint h (by decide))
    omega
  rw [charPieces, if_neg hlong]
  split
  · next hunit => exact pieces?_unitText hunit
  · next hpair =>
    have hrange := codePoint_lt c
    rw [List.append_assoc, pieces?_unitText (by omega), pieces?_unitText (by omega), Option.map_map]
    rfl

/-- **The text of a string is read in its pieces**, up to the closing quote. -/
theorem pieces?_stringText (cs rest : List Char) :
    pieces? (cs.flatMap charText ++ '"' :: rest) = some (cs.flatMap charPieces, rest) := by
  induction cs with
  | nil => simp [pieces?]
  | cons c cs ih =>
    rw [List.flatMap_cons, List.append_assoc, pieces?_charText, ih]
    rfl

/-! ## Characters from pieces -/

/-- A unit that is no first half is a character by itself. -/
theorem joinPieces_unit {n : Nat} (h : isHighSurrogate n = false) :
    joinPieces (.unit n :: ps) = ofUnit n :: joinPieces ps := by
  rw [joinPieces.eq_def]
  split
  · next h' => cases h'
  · next h' => cases h'
  · next h' =>
    cases h'
    rw [h]
    rfl
  · next h' =>
    cases h'
    rfl

/-- **A character that is no first half comes back from its pieces.** -/
theorem joinPieces_charPieces (h : isHighSurrogate (codePoint c) = false) :
    joinPieces (charPieces c ++ ps) = c :: joinPieces ps := by
  simp only [charPieces]
  split
  · rfl
  split
  · rw [List.singleton_append, joinPieces_unit h, ofUnit_codePoint]
  · next hn =>
    have hnot : isSurrogate (codePoint c) = false := by
      rw [Bool.eq_false_iff, ne_eq, isSurrogate_iff]
      omega
    have hcode := codePoint_eq_toNat hnot
    obtain ⟨hhigh, hlow, hpair⟩ := halves_spec (by omega) (codePoint_lt c)
    have hhalves : (isHighSurrogate (highHalf (codePoint c))
        && isLowSurrogate (lowHalf (codePoint c))) = true := by
      rw [hhigh, hlow]
      rfl
    simp only [List.cons_append, List.nil_append]
    rw [joinPieces, if_pos hhalves, hpair, hcode, Char.ofNat_toNat]

/-- A first half is read in one piece. -/
theorem charPieces_of_high (h : isHighSurrogate (codePoint c) = true) :
    charPieces c = [.unit (codePoint c)] := by
  simp only [isHighSurrogate, Bool.and_eq_true, decide_eq_true_eq] at h
  rw [charPieces, if_neg (by omega), if_pos (by omega)]

/-- A second half is read in one piece. -/
theorem charPieces_of_low (h : isLowSurrogate (codePoint c) = true) :
    charPieces c = [.unit (codePoint c)] := by
  simp only [isLowSurrogate, Bool.and_eq_true, decide_eq_true_eq] at h
  rw [charPieces, if_neg (by omega), if_pos (by omega)]

/-- A unit before a character that is no second half is a character by itself. -/
theorem joinPieces_unit_charPieces {n : Nat} (h : isLowSurrogate (codePoint c) = false) :
    joinPieces (.unit n :: (charPieces c ++ ps)) = ofUnit n :: joinPieces (charPieces c ++ ps) := by
  simp only [charPieces]
  split
  · rfl
  split
  · rw [List.singleton_append, joinPieces, h, Bool.and_false]
    rfl
  · next hn =>
    obtain ⟨hhigh, -, -⟩ := halves_spec (by omega) (codePoint_lt c)
    have hnot : isLowSurrogate (highHalf (codePoint c)) = false := by
      simp only [isHighSurrogate, isLowSurrogate, Bool.and_eq_true, Bool.and_eq_false_iff,
        decide_eq_true_eq, decide_eq_false_iff_not] at hhigh ⊢
      omega
    simp only [List.cons_append, List.nil_append]
    rw [joinPieces, hnot, Bool.and_false]
    rfl

/-- **The pieces of a text make the text**, with halves side by side made into characters. -/
theorem joinPieces_flatMap (cs : List Char) :
    joinPieces (cs.flatMap charPieces) = joinHalves cs := by
  fun_induction joinHalves cs with
  | case1 a b rest hpair ih =>
    obtain ⟨hhigh, hlow⟩ := Bool.and_eq_true_iff.1 hpair
    rw [List.flatMap_cons, List.flatMap_cons, charPieces_of_high hhigh, charPieces_of_low hlow]
    simp only [List.cons_append, List.nil_append]
    rw [joinPieces, if_pos hpair, ih]
  | case2 a b rest hpair ih =>
    by_cases hhigh : isHighSurrogate (codePoint a) = true
    -- a first half without its second comes back only because of what follows it
    · have hlow : isLowSurrogate (codePoint b) = false := by
        rw [hhigh, Bool.true_and, Bool.not_eq_true] at hpair
        exact hpair
      rw [List.flatMap_cons, List.flatMap_cons, charPieces_of_high hhigh, List.singleton_append,
        joinPieces_unit_charPieces hlow, ofUnit_codePoint, ← List.flatMap_cons, ih]
    · rw [List.flatMap_cons, joinPieces_charPieces (Bool.eq_false_iff.2 hhigh), ih]
  | case3 cs hcs =>
    match cs with
    | [] => rfl
    | [c] =>
      by_cases hhigh : isHighSurrogate (codePoint c) = true
      · rw [List.flatMap_singleton, charPieces_of_high hhigh]
        exact congrArg (· :: []) (ofUnit_codePoint c)
      · rw [List.flatMap_cons, joinPieces_charPieces (Bool.eq_false_iff.2 hhigh)]
        rfl
    | a :: b :: rest => exact absurd rfl (hcs a b rest)

/-- **A string is read as it was written**, with halves side by side made into characters. -/
theorem readString_stringText (s : String) (rest : List Char) :
    readString (s.toList.flatMap charText ++ '"' :: rest) = .ok (joined s, rest) := by
  rw [readString, pieces?_stringText]
  simp only [joinPieces_flatMap, joined]

end Json

end LineCalc
