import LineCalc.Proofs.Token.Lexer
import LineCalc.Text.Blank
import LineCalc.Text.CharClass
/-!
# LineCalc — the characters of a text

`HasOnly p` says that a text is made of characters with the property `p`. Texts put together, cut or
trimmed keep it. The tokens of a line can be shown whatever the line holds, since the lexer lets
nothing through but digits, points, letters and operators (`Token.isShown_ofText`).
-/

namespace LineCalc

namespace Text

variable {p : Char → Prop} {s t : String}

/-- Whether all characters of a text have a property. -/
def HasOnly (p : Char → Prop) (s : String) : Prop :=
  ∀ c ∈ s.toList, p c

/-- Whether a text can be shown on a line. -/
def IsShown (s : String) : Prop :=
  HasOnly (fun c => isPrintable c = true) s

theorem hasOnly_ofList {cs : List Char} (h : ∀ c ∈ cs, p c) : HasOnly p (String.ofList cs) := by
  rw [HasOnly, String.toList_ofList]
  exact h

theorem HasOnly.mono (h : HasOnly p s) {q : Char → Prop} (hq : ∀ c, p c → q c) : HasOnly q s :=
  fun c hc => hq c (h c hc)

theorem HasOnly.append (hs : HasOnly p s) (ht : HasOnly p t) : HasOnly p (s ++ t) := by
  rw [HasOnly, String.toList_append]
  exact List.forall_mem_append.2 ⟨hs, ht⟩

theorem hasOnly_join {texts : List String} (h : ∀ s ∈ texts, HasOnly p s) :
    HasOnly p (String.join texts) := by
  rw [HasOnly, String.toList_join]
  intro c hc
  obtain ⟨s, hs, hc⟩ := List.mem_flatMap.1 hc
  exact h s hs c hc

theorem hasOnly_intercalate {separator : String} {texts : List String} (hsep : HasOnly p separator)
    (h : ∀ s ∈ texts, HasOnly p s) : HasOnly p (separator.intercalate texts) := by
  induction texts with
  | nil =>
    rw [String.intercalate_nil]
    exact fun c hc => absurd hc List.not_mem_nil
  | cons s rest ih =>
    obtain ⟨hs, hrest⟩ := List.forall_mem_cons.1 h
    by_cases hempty : rest = []
    · rw [hempty, String.intercalate_singleton]
      exact hs
    · rw [String.intercalate_cons_of_ne_nil hempty]
      exact (hs.append hsep).append (ih hrest)

/-- Trimming takes characters away only. -/
theorem HasOnly.trim (h : HasOnly p s) : HasOnly p (trim s) := by
  have hsub : (trimBy isBlank s.toList).Sublist s.toList := by
    have hback : ((s.toList.dropWhile isBlank).reverse.dropWhile isBlank).Sublist
        (s.toList.dropWhile isBlank).reverse := List.dropWhile_sublist _
    exact (List.reverse_sublist.1 (by simpa [trimBy] using hback)).trans (List.dropWhile_sublist _)
  exact hasOnly_ofList fun c hc => h c (hsub.subset hc)

/-! ## What can be shown -/

/-- A word of the program can be shown if a look at it says so. -/
theorem isShown_of_all (h : s.toList.all isPrintable = true) : IsShown s :=
  List.all_eq_true.1 h

theorem isPrintable_of_mem_range {c : Char} (hge : 32 ≤ c.toNat) (hlt : c.toNat < 127) :
    isPrintable c = true := by
  rw [isPrintable_of_ascii (by omega)]
  simp only [Bool.and_eq_true, decide_eq_true_eq]
  exact ⟨hge, hlt⟩

theorem isPrintable_of_isAsciiDigit {c : Char} (h : isAsciiDigit c) : isPrintable c = true := by
  obtain ⟨hge, hle⟩ := isAsciiDigit_iff.1 h
  exact isPrintable_of_mem_range (by omega) (by omega)

theorem isPrintable_of_isAsciiLetter {c : Char} (h : isAsciiLetter c) : isPrintable c = true := by
  have hrange : 65 ≤ c.toNat ∧ c.toNat ≤ 122 := by
    simp only [isAsciiLetter, Bool.or_eq_true, Bool.and_eq_true, decide_eq_true_eq, Char.le_def,
      UInt32.le_iff_toNat_le] at h
    rcases h with ⟨hge, hle⟩ | ⟨hge, hle⟩
    · exact ⟨Nat.le_trans (by decide) hge, hle⟩
    · exact ⟨hge, Nat.le_trans hle (by decide)⟩
  exact isPrintable_of_mem_range (by omega) (by omega)

/-- The sign and the digits of an integer. -/
theorem isShown_toString (n : Int) : IsShown (toString n) := by
  have hdigits : ∀ k : Nat, IsShown (toString k) := by
    intro k c hc
    have hmem : c ∈ Nat.toDigits 10 k := by
      rwa [Nat.toString_eq_repr, Nat.toList_repr] at hc
    exact isPrintable_of_isAsciiDigit (isAsciiDigit_of_mem_toDigits hmem)
  cases n with
  | ofNat k => exact hdigits k
  | negSucc k => exact (isShown_of_all (by decide)).append (hdigits (k + 1))

end Text

/-- **A token can be shown**, whatever the line is. -/
theorem Token.isShown_ofText {t : Token} {text : String} (h : t ∈ ofText text) :
    Text.IsShown t.text := by
  have hchar : ∀ c, Text.isPrintable c = true → Text.IsShown (ofChar c).text := by
    intro c hc d hd
    rw [toList_text_ofChar, List.mem_singleton] at hd
    rwa [hd]
  refine forall_mem_ofText (P := fun t => Text.IsShown t.text) (hchar '*' (by decide)) ?_ ?_ t h
  · intro run hrun
    refine Text.hasOnly_ofList fun c hc => ?_
    rcases hrun.digit_or_point c (List.mem_reverse.1 hc) with hd | rfl
    · exact Text.isPrintable_of_isAsciiDigit hd
    · decide
  · intro c _ hmark
    refine hchar c ?_
    rcases hmark with hl | hmem
    · exact Text.isPrintable_of_isAsciiLetter hl
    · simp only [List.mem_cons, List.not_mem_nil, or_false] at hmem
      rcases hmem with rfl | rfl | rfl | rfl | rfl | rfl | rfl | rfl <;> decide

end LineCalc
