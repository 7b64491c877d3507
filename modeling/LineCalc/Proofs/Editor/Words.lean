import LineCalc.Proofs.Editor.WellFormed
import Mathlib.Data.List.TakeWhile
import Mathlib.Order.Bounds.Basic
/-!
# LineCalc — words

Motions and operators find words by measuring runs of characters, forwards from a position or
backwards from it. Here the runs are read back as positions: a word starts where a character of a
word has none before it (`IsWordStart`), and ends where it has none behind it (`IsWordEnd`). Each
search has one lemma, which says that it stops at the nearest such position or has none to stop at
(`nextWord_cases`, `previousWord_cases`, `wordEnd_cases`). What a motion aims at and what an
operator covers are these positions, kept on the line (`target_word`, `span_word`).
-/

namespace LineCalc

namespace Editor

variable {cs : List Char} {i j k : Nat}

/-! ## Words by their positions -/

/-- Whether the character at a position is part of a word. Behind the text there is none. -/
def wordAt (cs : List Char) (j : Nat) : Bool :=
  cs[j]?.any Text.isWordChar

/-- Whether a word starts at a position. -/
def IsWordStart (cs : List Char) (j : Nat) : Prop :=
  wordAt cs j ∧ (j = 0 ∨ wordAt cs (j - 1) = false)

/-- Whether a word ends with the character before a position. -/
def IsWordEnd (cs : List Char) (j : Nat) : Prop :=
  wordAt cs (j - 1) ∧ (j = cs.length ∨ wordAt cs j = false)

instance : Decidable (IsWordStart cs j) :=
  inferInstanceAs (Decidable (_ ∧ _))

instance : Decidable (IsWordEnd cs j) :=
  inferInstanceAs (Decidable (_ ∧ _))

theorem lt_length_of_wordAt (h : wordAt cs j) : j < cs.length := by
  by_contra hge
  rw [wordAt, List.getElem?_eq_none (Nat.le_of_not_lt hge)] at h
  cases h

/-- In a gap there is no word. -/
theorem wordAt_eq_false_of_gap (h : cs[j]?.any (! Text.isWordChar ·)) : wordAt cs j = false := by
  rw [wordAt]
  cases hc : cs[j]? with
  | none => rfl
  | some c => simpa [hc] using h

/-- Where a gap ends on the line, there is one. -/
theorem wordAt_of_not_gap (hj : j < cs.length) (h : cs[j]?.any (! Text.isWordChar ·) = false) :
    wordAt cs j := by
  rw [List.getElem?_eq_getElem hj] at h
  rw [wordAt, List.getElem?_eq_getElem hj]
  simpa using h

/-- A word has one start: a part of it with another part before it is none. -/
theorem not_isWordStart (hk : 0 < k) (h : wordAt cs (k - 1)) : ¬ IsWordStart cs k := by
  rintro ⟨-, rfl | hbefore⟩
  · exact Nat.lt_irrefl 0 hk
  · rw [h] at hbefore
    cases hbefore

/-! ## Runs, forwards and backwards -/

section

variable {p : Char → Bool}

/-- Every character of a run passes the test of the run. -/
theorem any_of_lt_run (h : k < (cs.takeWhile p).length) : cs[k]?.any p := by
  have hfront := List.takeWhile_prefix p (l := cs)
  have hpass := List.mem_takeWhile_imp (List.getElem_mem h)
  rw [hfront.getElem h] at hpass
  rw [List.getElem?_eq_getElem (Nat.lt_of_lt_of_le h hfront.length_le), Option.any_some, hpass]

/-- The character behind a run does not. -/
theorem any_behind_run (cs : List Char) (p : Char → Bool) :
    cs[(cs.takeWhile p).length]?.any p = false := by
  induction cs with
  | nil => rfl
  | cons c cs ih =>
    by_cases hc : p c
    · rw [List.takeWhile_cons_of_pos hc, List.length_cons, List.getElem?_cons_succ]
      exact ih
    · rw [List.takeWhile_cons_of_neg hc]
      simpa using hc

/-- The run from `i` on. -/
theorem any_of_lt_run_drop (hi : i ≤ k) (hk : k < i + ((cs.drop i).takeWhile p).length) :
    cs[k]?.any p := by
  have h : (cs.drop i)[k - i]?.any p := any_of_lt_run (by omega)
  rwa [List.getElem?_drop, Nat.add_sub_cancel' hi] at h

theorem any_behind_run_drop (cs : List Char) (i : Nat) (p : Char → Bool) :
    cs[i + ((cs.drop i).takeWhile p).length]?.any p = false := by
  rw [← List.getElem?_drop]
  exact any_behind_run (cs.drop i) p

theorem add_run_drop_le (hi : i ≤ cs.length) :
    i + ((cs.drop i).takeWhile p).length ≤ cs.length := by
  have hle := (List.takeWhile_prefix p (l := cs.drop i)).length_le
  rw [List.length_drop] at hle
  omega

/-- Counted backwards from `j`, the first position is the one before it. -/
theorem getElem?_reverse_take (hj : j ≤ cs.length) (hk : k < j) :
    (cs.take j).reverse[k]? = cs[j - 1 - k]? := by
  have hlength : (cs.take j).length = j := List.length_take_of_le hj
  rw [List.getElem?_reverse (by omega), hlength, List.getElem?_take_of_lt (by omega)]

/-- The run up to `j`. -/
theorem any_of_le_run_take (hj : j ≤ cs.length) (hkj : k < j)
    (hk : j ≤ k + ((cs.take j).reverse.takeWhile p).length) : cs[k]?.any p := by
  have h : (cs.take j).reverse[j - 1 - k]?.any p := any_of_lt_run (by omega)
  rwa [getElem?_reverse_take hj (by omega), show j - 1 - (j - 1 - k) = k by omega] at h

theorem any_before_run_take (hj : j ≤ cs.length)
    (h : ((cs.take j).reverse.takeWhile p).length < j) :
    cs[j - 1 - ((cs.take j).reverse.takeWhile p).length]?.any p = false := by
  rw [← getElem?_reverse_take hj h]
  exact any_behind_run (cs.take j).reverse p

end

/-! ## Searches -/

/-- **The next word is the nearest one that starts behind**, or there is none up to the end. -/
theorem nextWord_cases (hi : i ≤ cs.length) :
    IsLeast {k | i < k ∧ IsWordStart cs k} (nextWord cs i) ∨
      (∀ k, i < k → ¬ IsWordStart cs k) ∧ nextWord cs i = cs.length := by
  -- the word at `i`, if there is one, ends before `j`, and the gap behind it before `n`
  obtain ⟨j, hj⟩ : ∃ j, j = i + wordRun (cs.drop i) := ⟨_, rfl⟩
  obtain ⟨n, hn⟩ : ∃ n, n = j + gapRun (cs.drop j) := ⟨_, rfl⟩
  have hnext : nextWord cs i = n := by rw [hn, hj, nextWord]
  have hword : ∀ k, i ≤ k → k < j → wordAt cs k :=
    fun k hik hkj => any_of_lt_run_drop hik (hj ▸ hkj)
  have hbehind : wordAt cs j = false := hj ▸ any_behind_run_drop cs i Text.isWordChar
  have hgap : ∀ k, j ≤ k → k < n → wordAt cs k = false :=
    fun k hjk hkn => wordAt_eq_false_of_gap (any_of_lt_run_drop hjk (hn ▸ hkn))
  have hjle : j ≤ cs.length := hj ▸ add_run_drop_le hi
  have hnle : n ≤ cs.length := hn ▸ add_run_drop_le hjle
  have hnone : ∀ k, i < k → k < n → ¬ IsWordStart cs k := by
    intro k hik hkn
    rcases Nat.lt_or_ge k j with hkj | hjk
    · exact not_isWordStart (by omega) (hword (k - 1) (by omega) (by omega))
    · rw [IsWordStart, hgap k hjk hkn]
      exact fun h => Bool.false_ne_true h.1
  rw [hnext]
  rcases Nat.lt_or_ge n cs.length with hlt | hge
  · have hat : wordAt cs n := wordAt_of_not_gap hlt (hn ▸ any_behind_run_drop cs j _)
    have hne : n ≠ j := by
      rintro rfl
      rw [hbehind] at hat
      cases hat
    refine .inl ⟨⟨by omega, hat, .inr (hgap (n - 1) (by omega) (by omega))⟩, ?_⟩
    rintro k ⟨hik, hstart⟩
    by_contra hkn
    exact hnone k hik (Nat.lt_of_not_le hkn) hstart
  · refine .inr ⟨fun k hik hstart => ?_, by omega⟩
    have hk := lt_length_of_wordAt hstart.1
    exact hnone k hik (by omega) hstart

/-- A word starts where its run backwards ends. -/
theorem isGreatest_wordStart (h : wordAt cs j) :
    IsGreatest {k | k ≤ j ∧ IsWordStart cs k} (wordStart cs j) := by
  have hj := Nat.le_of_lt (lt_length_of_wordAt h)
  obtain ⟨n, hn⟩ : ∃ n, n = wordRun (cs.take j).reverse := ⟨_, rfl⟩
  have hstart : wordStart cs j = j - n := by rw [hn, wordStart]
  have hword : ∀ k, k ≤ j → j ≤ k + n → wordAt cs k := by
    intro k hkj hk
    rcases Nat.lt_or_eq_of_le hkj with hlt | rfl
    · exact any_of_le_run_take hj hlt (by rwa [hn, wordRun] at hk)
    · exact h
  rw [hstart]
  refine ⟨⟨Nat.sub_le j n, hword (j - n) (Nat.sub_le j n) (by omega), ?_⟩, ?_⟩
  · rcases Nat.lt_or_ge n j with hlt | hge
    · refine .inr ?_
      rw [Nat.sub_right_comm]
      subst hn
      exact any_before_run_take hj hlt
    · exact .inl (Nat.sub_eq_zero_of_le hge)
  · rintro k ⟨hkj, hk⟩
    by_contra hlt
    exact not_isWordStart (by omega) (hword (k - 1) (by omega) (by omega)) hk

/-- **The previous word is the nearest one that starts before**, or there is none up to the
front. -/
theorem previousWord_cases (hi : i ≤ cs.length) :
    IsGreatest {k | k < i ∧ IsWordStart cs k} (previousWord cs i) ∨
      (∀ k, k < i → ¬ IsWordStart cs k) ∧ previousWord cs i = 0 := by
  obtain ⟨n, hn⟩ : ∃ n, n = gapRun (cs.take i).reverse := ⟨_, rfl⟩
  have hprevious : previousWord cs i = wordStart cs (i - 1 - n) := by rw [hn, previousWord]
  have hgap : ∀ k, k < i → i ≤ k + n → ¬ IsWordStart cs k := by
    intro k hki hk
    have hnone : wordAt cs k = false :=
      wordAt_eq_false_of_gap (any_of_le_run_take hi hki (by rwa [hn, gapRun] at hk))
    rw [IsWordStart, hnone]
    exact fun h => Bool.false_ne_true h.1
  rw [hprevious]
  rcases Nat.lt_or_ge n i with hlt | hge
  -- the gap before `i` has a word before it
  · have hat : wordAt cs (i - 1 - n) := by
      refine wordAt_of_not_gap (by omega) ?_
      subst hn
      exact any_before_run_take hi hlt
    obtain ⟨⟨hle, hstart⟩, hupper⟩ := isGreatest_wordStart hat
    refine .inl ⟨⟨by omega, hstart⟩, ?_⟩
    rintro k ⟨hki, hk⟩
    refine hupper ⟨?_, hk⟩
    by_contra hkn
    exact hgap k hki (by omega) hk
  · refine .inr ⟨fun k hki => hgap k hki (by omega), ?_⟩
    have hle := wordStart_le cs (i - 1 - n)
    omega

/-- **A word is followed to its nearest end behind**, or there is none up to the end. -/
theorem wordEnd_cases (hi : i ≤ cs.length) :
    IsLeast {k | i < k ∧ IsWordEnd cs k} (wordEnd cs i) ∨
      (∀ k, i < k → ¬ IsWordEnd cs k) ∧ wordEnd cs i = cs.length := by
  -- the gap at `i`, if there is one, ends before `j`, and the word behind it before `n`
  obtain ⟨j, hj⟩ : ∃ j, j = i + gapRun (cs.drop i) := ⟨_, rfl⟩
  obtain ⟨n, hn⟩ : ∃ n, n = j + wordRun (cs.drop j) := ⟨_, rfl⟩
  have hend : wordEnd cs i = n := by rw [hn, hj, wordEnd]
  have hgap : ∀ k, i ≤ k → k < j → wordAt cs k = false :=
    fun k hik hkj => wordAt_eq_false_of_gap (any_of_lt_run_drop hik (hj ▸ hkj))
  have hword : ∀ k, j ≤ k → k < n → wordAt cs k :=
    fun k hjk hkn => any_of_lt_run_drop hjk (hn ▸ hkn)
  have hbehind : wordAt cs n = false := hn ▸ any_behind_run_drop cs j Text.isWordChar
  have hjle : j ≤ cs.length := hj ▸ add_run_drop_le hi
  have hnle : n ≤ cs.length := hn ▸ add_run_drop_le hjle
  -- an end has a part of its word before it, which the gap has not
  have hpast : ∀ k, i < k → IsWordEnd cs k → j < k := by
    rintro k hik ⟨hbefore, -⟩
    by_contra hkj
    rw [hgap (k - 1) (by omega) (by omega)] at hbefore
    cases hbefore
  rw [hend]
  rcases Nat.lt_or_ge j cs.length with hlt | hge
  · have hat : wordAt cs j := wordAt_of_not_gap hlt (hj ▸ any_behind_run_drop cs i _)
    have hne : n ≠ j := by
      rintro rfl
      rw [hbehind] at hat
      cases hat
    refine .inl ⟨⟨by omega, hword (n - 1) (by omega) (by omega), .inr hbehind⟩, ?_⟩
    rintro k ⟨hik, hk⟩
    by_contra hkn
    have hinside := hword k (Nat.le_of_lt (hpast k hik hk)) (by omega)
    rcases hk.2 with rfl | hfree
    · exact Nat.lt_irrefl _ (lt_length_of_wordAt hinside)
    · rw [hinside] at hfree
      cases hfree
  · refine .inr ⟨fun k hik hk => ?_, by omega⟩
    have hlt := lt_length_of_wordAt hk.1
    have hjk := hpast k hik hk
    omega

variable {e : Editor} {m : Motion} {first stop : Nat}

/-! ## Motions -/

theorem onChar_le_length (e : Editor) : e.onChar ≤ e.text.length :=
  Nat.le_trans e.onChar_le (Nat.sub_le _ 1)

/-- A motion puts the cursor where it aims at. -/
theorem onChar_move (e : Editor) (m : Motion) : (e.move m).onChar = e.target m := by
  have hle := e.target_le m
  simp only [onChar, position, move, Int.toNat_natCast]
  exact Nat.min_eq_left hle

theorem target_wordForward_cases (e : Editor) :
    IsLeast {j | e.onChar < j ∧ IsWordStart e.text j} (e.target .wordForward) ∨
      (∀ j, e.onChar < j → ¬ IsWordStart e.text j) ∧
        e.target .wordForward = e.text.length - 1 := by
  have htarget : e.target .wordForward = min (nextWord e.text e.onChar) (e.text.length - 1) := rfl
  rw [htarget]
  rcases nextWord_cases e.onChar_le_length with hleast | ⟨hnone, hend⟩
  -- a word that starts on the line starts before its end
  · have hlt := lt_length_of_wordAt hleast.1.2.1
    rw [Nat.min_eq_left (by omega)]
    exact .inl hleast
  · rw [hend]
    exact .inr ⟨hnone, Nat.min_eq_right (Nat.sub_le _ 1)⟩

theorem target_wordBackward_cases (e : Editor) :
    IsGreatest {j | j < e.onChar ∧ IsWordStart e.text j} (e.target .wordBackward) ∨
      (∀ j, j < e.onChar → ¬ IsWordStart e.text j) ∧ e.target .wordBackward = 0 :=
  previousWord_cases e.onChar_le_length

/-- **Word motions go to the nearest word.** Forwards that is the first one that starts behind the
cursor, backwards the last one that starts before it; where there is none, the motion goes to the
end of the line or to its front. So from the start of a word to the start of the next one, and back
again, is no way at all. -/
theorem target_word (e : Editor) :
    (IsLeast {j | e.onChar < j ∧ IsWordStart e.text j} (e.target .wordForward) ∨
        (∀ j, e.onChar < j → ¬ IsWordStart e.text j) ∧
          e.target .wordForward = e.text.length - 1) ∧
      (IsGreatest {j | j < e.onChar ∧ IsWordStart e.text j} (e.target .wordBackward) ∨
        (∀ j, j < e.onChar → ¬ IsWordStart e.text j) ∧ e.target .wordBackward = 0) ∧
      (IsWordStart e.text e.onChar → e.onChar < e.target .wordForward →
        IsWordStart e.text (e.target .wordForward) →
        ((e.move .wordForward).move .wordBackward).cursor = e.onChar) := by
  refine ⟨e.target_wordForward_cases, e.target_wordBackward_cases, fun hhere hlater hthere => ?_⟩
  have hback := (e.move .wordForward).target_wordBackward_cases
  rw [onChar_move] at hback
  have hleast : ∀ j, e.onChar < j → IsWordStart e.text j → e.target .wordForward ≤ j := by
    rcases e.target_wordForward_cases with hleast | ⟨hnone, -⟩
    · exact fun j hj hstart => hleast.2 ⟨hj, hstart⟩
    · exact absurd hthere (hnone _ hlater)
  suffices (e.move .wordForward).target .wordBackward = e.onChar from congrArg Int.ofNat this
  rcases hback with ⟨⟨hlt, hstart⟩, hupper⟩ | ⟨hnone, -⟩
  · refine Nat.le_antisymm ?_ (hupper ⟨hlater, hhere⟩)
    by_contra hle
    have := hleast _ (Nat.lt_of_not_le hle) hstart
    omega
  · exact absurd hhere (hnone e.onChar hlater)

/-- Two words with marks before, between and behind them, and the cursor on the first one. -/
def worded : Editor :=
  { ofText "-ab+(c_1)".toList [] with cursor := 1, mode := .normal }

/-- From `ab` to `c_1` and back. -/
theorem target_word_worded :
    IsWordStart worded.text worded.onChar ∧ worded.onChar < worded.target .wordForward ∧
      IsWordStart worded.text (worded.target .wordForward) ∧
      ((worded.move .wordForward).move .wordBackward).cursor = 1 := by
  have hhere : IsWordStart worded.text worded.onChar := by decide
  have hlater : worded.onChar < worded.target .wordForward := by decide
  have hthere : IsWordStart worded.text (worded.target .wordForward) := by decide
  exact ⟨hhere, hlater, hthere, (target_word worded).2.2 hhere hlater hthere⟩

/-! ## Operators -/

/-- **What an operator covers is on the line, and the cursor in it.** -/
theorem span_bounds (h : e.span m = some (first, stop)) :
    first ≤ e.onChar ∧ e.onChar < stop ∧ stop ≤ e.text.length := by
  have hon := e.onChar_le
  have htarget := e.target_le m
  unfold span at h
  split at h
  · cases h
  · next hne =>
    cases m with
    | wordForward =>
      cases h
      omega
    | wordBackward =>
      cases h
      have hle : wordHere e.text e.onChar ≤ e.onChar :=
        Nat.le_trans (wordStart_le _ _) (Nat.sub_le _ _)
      omega
    | left | right | lineStart | lineEnd =>
      cases h
      omega

/-- It is what is copied. -/
theorem register_yankMotion (h : e.span m = some (first, stop)) :
    (e.yankMotion m).register = (e.text.take stop).drop first := by
  rw [yankMotion, h]

/-- **Operators go to the nearest edge of a word.** Forwards that is the first end of a word behind
the cursor, or the end of the line; backwards it is the last start of a word up to the cursor, or
the front of the line. What any motion covers has the cursor in it and is on the line, and it is
what is copied. -/
theorem span_word (h : e.text ≠ []) :
    (∃ stop, e.span .wordForward = some (e.onChar, stop) ∧
        (IsLeast {j | e.onChar < j ∧ IsWordEnd e.text j} stop ∨
          (∀ j, e.onChar < j → ¬ IsWordEnd e.text j) ∧ stop = e.text.length)) ∧
      (∃ first, e.span .wordBackward = some (first, e.onChar + 1) ∧
        (IsGreatest {j | j ≤ e.onChar ∧ IsWordStart e.text j} first ∨
          (∀ j, j ≤ e.onChar → ¬ IsWordStart e.text j) ∧ first = 0)) ∧
      ∀ m first stop, e.span m = some (first, stop) →
        first ≤ e.onChar ∧ e.onChar < stop ∧ stop ≤ e.text.length ∧
          (e.yankMotion m).register = (e.text.take stop).drop first := by
  have hne : ¬ e.text.length = 0 := mt List.length_eq_zero_iff.1 h
  have hlt : e.onChar < e.text.length := by
    have := e.onChar_le
    omega
  refine ⟨⟨wordEnd e.text e.onChar, ?_, wordEnd_cases e.onChar_le_length⟩,
    ⟨previousWord e.text (e.onChar + 1), ?_, ?_⟩, fun m first stop hspan => ?_⟩
  · have hforward : e.span .wordForward
        = some (e.onChar, min (max (wordEnd e.text e.onChar) (e.onChar + 1)) e.text.length) :=
      if_neg hne
    have hbounds : e.onChar < wordEnd e.text e.onChar ∧
        wordEnd e.text e.onChar ≤ e.text.length := by
      rcases wordEnd_cases e.onChar_le_length with hleast | ⟨-, hend⟩
      · have := lt_length_of_wordAt hleast.1.2.1
        have := hleast.1.1
        omega
      · omega
    rw [hforward, Nat.max_eq_left hbounds.1, Nat.min_eq_left hbounds.2]
  -- the word at a position is the previous one from the next position
  · exact if_neg hne
  · simpa only [Nat.lt_succ_iff] using previousWord_cases (i := e.onChar + 1) hlt
  · obtain ⟨hfirst, hstop, hle⟩ := span_bounds hspan
    exact ⟨hfirst, hstop, hle, register_yankMotion hspan⟩

/-- From the sign between the words both of them are covered. -/
theorem span_word_worded : { worded with cursor := 3 }.text ≠ [] ∧
    { worded with cursor := 3 }.span .wordForward = some (3, 8) ∧
    IsLeast {j | 3 < j ∧ IsWordEnd worded.text j} 8 ∧
    { worded with cursor := 3 }.span .wordBackward = some (1, 4) ∧
    IsGreatest {j | j ≤ 3 ∧ IsWordStart worded.text j} 1 := by
  have hne : { worded with cursor := 3 }.text ≠ [] := by decide
  have hforward : { worded with cursor := 3 }.span .wordForward = some (3, 8) := by decide
  have hbackward : { worded with cursor := 3 }.span .wordBackward = some (1, 4) := by decide
  obtain ⟨⟨stop, hstop, hleast⟩, ⟨first, hfirst, hgreatest⟩, -⟩ := span_word hne
  cases hforward.symm.trans hstop
  cases hbackward.symm.trans hfirst
  refine ⟨hne, hforward, hleast.resolve_right ?_, hbackward, hgreatest.resolve_right ?_⟩
  · exact fun hnone => hnone.1 8 (by decide) (by decide)
  · exact fun hnone => hnone.1 1 (by decide) (by decide)

end Editor

end LineCalc
