import LineCalc.Proofs.Token.Settled
/-!
# LineCalc — which tokens are numerals

A token is a literal by the digits of every script, and a line feed may end it; each digit counts by
its value, so it is the literal that is written with the ASCII digits of the same values
(`Literal.readFrom_map_asciiDigit`). The lexer goes by ASCII digits alone. On its own tokens the two
agree: what it gives out and the reader takes are the runs of ASCII digits with at most one point and
at least one digit, and these are all tokens of ASCII characters without a line feed that the reader
takes (`Token.isSome_literal?_iff`). A token that comes from elsewhere can be a literal and no such
run.
-/

namespace LineCalc

/-! ## Digits -/

namespace Text

variable {c : Char}

/-- A decimal digit, of whichever script. -/
def IsDigit (c : Char) : Prop :=
  (digitValue? c).isSome

theorem isDigit_of_isAsciiDigit (h : isAsciiDigit c) : IsDigit c := by
  rw [IsDigit, digitValue?_of_isAsciiDigit h]
  rfl

/-- The digits below 128 are those of ASCII. -/
theorem isAsciiDigit_of_isDigit (h : IsDigit c) (hc : c.toNat < 128) : isAsciiDigit c := by
  rw [IsDigit, digitValue?, if_pos hc, digitAmong] at h
  by_contra hdigit
  rw [isAsciiDigit_iff] at hdigit
  split at h
  · cases h
  · rw [if_neg (by omega)] at h
    cases h

theorem not_isDigit_point : ¬ IsDigit '.' := by
  unfold IsDigit
  decide

theorem not_isDigit_feed : ¬ IsDigit '\n' := by
  unfold IsDigit
  decide

end Text

namespace Numeral

variable {c : Char}

theorem asciiDigit_of_not_isDigit (h : ¬ Text.IsDigit c) : asciiDigit c = c := by
  rw [asciiDigit, Option.not_isSome_iff_eq_none.1 h]

/-- A digit comes to an ASCII digit, of the same value. -/
theorem asciiDigit_of_isDigit (h : Text.IsDigit c) :
    Text.isAsciiDigit (asciiDigit c) ∧ Text.digitValue? (asciiDigit c) = Text.digitValue? c := by
  obtain ⟨d, hd⟩ := Option.isSome_iff_exists.1 h
  have hlt : d < 10 := Text.digitValue?_lt hd
  have hdigit : ∀ d < 10, Text.isAsciiDigit (Nat.digitChar d) ∧
      Text.digitValue? (Nat.digitChar d) = some d := by decide
  have hascii : asciiDigit c = Nat.digitChar d := by rw [asciiDigit, hd]
  rw [hascii, hd]
  exact hdigit d hlt

theorem digitValue?_asciiDigit (c : Char) :
    Text.digitValue? (asciiDigit c) = Text.digitValue? c := by
  by_cases h : Text.IsDigit c
  · exact (asciiDigit_of_isDigit h).2
  · rw [asciiDigit_of_not_isDigit h]

/-- Only digits are replaced, and by digits. -/
theorem asciiDigit_eq_iff {d : Char} (hd : ¬ Text.IsDigit d) : asciiDigit c = d ↔ c = d := by
  by_cases h : Text.IsDigit c
  · refine iff_of_false (fun heq => hd ?_) (fun heq => hd (heq ▸ h))
    exact heq ▸ Text.isDigit_of_isAsciiDigit (asciiDigit_of_isDigit h).1
  · rw [asciiDigit_of_not_isDigit h]

end Numeral

/-! ## Numerals over a class of digits -/

/-- **Whether characters are a numeral**: digits of a class with at most one point among them, and
one digit at least. -/
structure IsNumeralOf (digit : Char → Prop) (cs : List Char) : Prop where
  digit_or_point : ∀ c ∈ cs, digit c ∨ c = '.'
  count_point_le : cs.count '.' ≤ 1
  exists_digit : ∃ c ∈ cs, digit c

/-- Whether characters are a numeral in ASCII digits. -/
def IsAsciiNumeral (cs : List Char) : Prop :=
  IsNumeralOf (fun c => Text.isAsciiDigit c) cs

section

variable {digit : Char → Prop} {cs : List Char}

/-- A larger class of digits has more numerals. -/
theorem IsNumeralOf.mono (h : IsNumeralOf digit cs) {digit' : Char → Prop}
    (hdigit : ∀ c ∈ cs, digit c → digit' c) : IsNumeralOf digit' cs where
  digit_or_point c hc := (h.digit_or_point c hc).imp_left (hdigit c hc)
  count_point_le := h.count_point_le
  exists_digit := by
    obtain ⟨c, hc, hd⟩ := h.exists_digit
    exact ⟨c, hc, hdigit c hc hd⟩

/-- **The numerals in ASCII digits are the runs of the lexer** but the lone point. -/
theorem isAsciiNumeral_iff : IsAsciiNumeral cs ↔ IsNumeral cs := by
  constructor
  · intro h
    obtain ⟨c, hc, hd⟩ := h.exists_digit
    refine ⟨⟨List.ne_nil_of_mem hc, h.digit_or_point, h.count_point_le⟩, ?_⟩
    rintro rfl
    rw [List.mem_singleton.1 hc] at hd
    cases hd
  · rintro ⟨hrun, hpoint⟩
    refine ⟨hrun.digit_or_point, hrun.count_point_le, ?_⟩
    by_contra hnone
    refine hpoint (Lexer.eq_point_of_not_any hrun (List.any_eq_false.2 fun c hc hd => ?_))
    exact hnone ⟨c, hc, hd⟩

end

/-! ## What the reader takes -/

namespace Literal

variable {any : Bool} {places : Option Nat} {coefficient : Nat} {cs : List Char}

/-- **Digits count by their values**, whatever script they are of. -/
theorem readFrom_map_asciiDigit :
    readFrom any places coefficient (cs.map Numeral.asciiDigit)
      = readFrom any places coefficient cs := by
  induction cs generalizing any places coefficient with
  | nil => rfl
  | cons c cs ih =>
    rw [List.map_cons, readFrom.eq_def, readFrom.eq_def any places coefficient (c :: cs)]
    simp only [Numeral.asciiDigit_eq_iff Text.not_isDigit_feed,
      Numeral.asciiDigit_eq_iff Text.not_isDigit_point, Numeral.digitValue?_asciiDigit,
      List.map_eq_nil_iff, ih]

/-- A line feed at the end is let pass. -/
theorem readFrom_append_feed (h : '\n' ∉ cs) :
    readFrom any places coefficient (cs ++ ['\n']) = readFrom any places coefficient cs := by
  induction cs generalizing any places coefficient with
  | nil => rfl
  | cons c cs ih =>
    obtain ⟨hc, hcs⟩ : '\n' ≠ c ∧ '\n' ∉ cs := by
      rwa [List.mem_cons, not_or] at h
    have hhead : ∀ ds : List Char, ¬ (c = '\n' ∧ ds = []) := fun ds hds => hc hds.1.symm
    rw [List.cons_append, readFrom.eq_def, readFrom.eq_def any places coefficient (c :: cs)]
    simp only [if_neg (hhead _), ih hcs]

/-- **What is read is digits and one point at most**, but for a line feed at the end. -/
theorem exists_run_of_isSome_readFrom (h : (readFrom any places coefficient cs).isSome) :
    ∃ run, (cs = run ∨ cs = run ++ ['\n']) ∧ (∀ c ∈ run, Text.IsDigit c ∨ c = '.') ∧
      run.count '.' + (if places.isSome then 1 else 0) ≤ 1 := by
  have hpoints : (if places.isSome then 1 else 0) ≤ 1 := by split <;> omega
  have hnil : ([] : List Char).count '.' + (if places.isSome then 1 else 0) ≤ 1 := by
    simpa using hpoints
  induction cs generalizing any places coefficient with
  | nil => exact ⟨[], .inl rfl, List.forall_mem_nil _, hnil⟩
  | cons c cs ih =>
    rw [readFrom.eq_def] at h
    dsimp only at h
    split at h
    · next hfeed =>
      obtain ⟨rfl, rfl⟩ := hfeed
      exact ⟨[], .inr rfl, List.forall_mem_nil _, hnil⟩
    · split at h
      · next hpoint =>
        subst hpoint
        cases places with
        | some n => cases h
        | none =>
          obtain ⟨run, hrun, hdigits, hcount⟩ := ih h (by simp) (by simp)
          refine ⟨'.' :: run, ?_, List.forall_mem_cons.2 ⟨.inr rfl, hdigits⟩, ?_⟩
          · exact hrun.imp (congrArg _) (congrArg _)
          · rw [List.count_cons_self]
            simpa using hcount
      · next hpoint =>
        split at h
        · next d hd =>
          obtain ⟨run, hrun, hdigits, hcount⟩ :=
            ih h (by simpa using hpoints) (by simpa using hpoints)
          have hc : Text.IsDigit c := Option.isSome_of_eq_some hd
          refine ⟨c :: run, ?_, List.forall_mem_cons.2 ⟨.inl hc, hdigits⟩, ?_⟩
          · exact hrun.imp (congrArg _) (congrArg _)
          · rw [List.count_cons_of_ne hpoint]
            simpa using hcount
        · cases h

/-- **Of digits and one point at most, what has a digit is read.** -/
theorem isSome_read?_iff (h : ∀ c ∈ cs, Text.IsDigit c ∨ c = '.') (hp : cs.count '.' ≤ 1) :
    (read? cs).isSome ↔ ∃ c ∈ cs, Text.IsDigit c := by
  have hpoint : ∀ c, Numeral.asciiDigit c = '.' ↔ c = '.' :=
    fun c => Numeral.asciiDigit_eq_iff Text.not_isDigit_point
  have hascii : ∀ c ∈ cs.map Numeral.asciiDigit, Text.isAsciiDigit c ∨ c = '.' := by
    intro d hmem
    obtain ⟨c, hc, rfl⟩ := List.mem_map.1 hmem
    exact (h c hc).imp (fun hd => (Numeral.asciiDigit_of_isDigit hd).1) (hpoint c).2
  have hcount : (cs.map Numeral.asciiDigit).count '.' = cs.count '.' := by
    rw [List.count_eq_countP, List.countP_map, List.count_eq_countP]
    refine List.countP_congr fun c _ => ?_
    simp only [Function.comp_apply, beq_iff_eq, hpoint]
  have hdigit : ∀ c, Text.isAsciiDigit (Numeral.asciiDigit c) ↔ Text.IsDigit c := by
    intro c
    refine ⟨fun hd => ?_, fun hd => (Numeral.asciiDigit_of_isDigit hd).1⟩
    rw [Text.IsDigit, ← Numeral.digitValue?_asciiDigit]
    exact Text.isDigit_of_isAsciiDigit hd
  rw [read?, ← readFrom_map_asciiDigit, isSome_readFrom hascii (by simpa [hcount] using hp)]
  simp [hdigit]

end Literal

/-! ## Tokens -/

namespace Token

variable {t : Token}

/-- **A literal is a numeral in the digits of every script**, and a line feed may end it. -/
theorem isSome_literal?_iff_isNumeralOf : t.literal?.isSome ↔
    ∃ run, (t.text.toList = run ∨ t.text.toList = run ++ ['\n']) ∧ IsNumeralOf Text.IsDigit run := by
  rw [literal?]
  have hread : ∀ run, (∀ c ∈ run, Text.IsDigit c ∨ c = '.') →
      (t.text.toList = run ∨ t.text.toList = run ++ ['\n']) →
      Literal.read? t.text.toList = Literal.read? run := by
    intro run hdigits htext
    have hfeed : '\n' ∉ run := by
      intro hmem
      rcases hdigits _ hmem with hd | hpoint
      · exact Text.not_isDigit_feed hd
      · cases hpoint
    rcases htext with htext | htext
    · rw [htext]
    · rw [htext]
      exact Literal.readFrom_append_feed hfeed
  constructor
  · intro h
    obtain ⟨run, htext, hdigits, hcount⟩ := Literal.exists_run_of_isSome_readFrom h
    have hp : run.count '.' ≤ 1 := by simpa using hcount
    rw [hread run hdigits htext, Literal.isSome_read?_iff hdigits hp] at h
    exact ⟨run, htext, hdigits, hp, h⟩
  · rintro ⟨run, htext, hdigits, hp, hdigit⟩
    rw [hread run hdigits htext, Literal.isSome_read?_iff hdigits hp]
    exact hdigit

/-- **Among tokens of ASCII characters without a line feed**, the literals are the numerals in ASCII
digits. -/
theorem isAsciiNumeral_iff_isSome_literal? : IsAsciiNumeral t.text.toList ↔
    t.literal?.isSome ∧ ∀ c ∈ t.text.toList, c.toNat < 128 ∧ c ≠ '\n' := by
  rw [isSome_literal?_iff_isNumeralOf]
  constructor
  · intro h
    refine ⟨⟨_, .inl rfl, h.mono fun c _ => Text.isDigit_of_isAsciiDigit⟩, fun c hc => ?_⟩
    rcases h.digit_or_point c hc with hd | rfl
    · have hbounds := Text.isAsciiDigit_iff.1 hd
      refine ⟨by omega, ?_⟩
      rintro rfl
      cases hd
    · decide
  · rintro ⟨⟨run, htext, hrun⟩, hascii⟩
    rcases htext with htext | htext
    · rw [htext] at hascii ⊢
      exact hrun.mono fun c hc hd => Text.isAsciiDigit_of_isDigit hd (hascii c hc).1
    · rw [htext] at hascii
      exact absurd rfl (hascii '\n' (List.mem_append_right _ (.head []))).2

/-- What the lexer gives out is in the characters of the notation. -/
theorem isNotation_of_mem_ofText {text : String} (h : t ∈ ofText text) {c : Char}
    (hc : c ∈ t.text.toList) : IsNotation c := by
  rcases (settled_ofText text).lexeme t h with hrun | ⟨mark, hmark, htext⟩
  · exact .inr (hrun.digit_or_point c hc)
  · rw [htext, List.mem_singleton] at hc
    exact .inl (hc ▸ hmark)

/-- These are ASCII characters, and the line feed is none of them. -/
theorem ascii_of_isNotation {c : Char} (h : IsNotation c) : c.toNat < 128 ∧ c ≠ '\n' := by
  have hlt : c.toNat < 128 := by
    rcases h with (hletter | hmark) | hd | rfl
    · simp only [Text.isAsciiLetter, Bool.or_eq_true, Bool.and_eq_true, decide_eq_true_eq,
        Char.le_def, UInt32.le_iff_toNat_le] at hletter
      have hz : ('z' : Char).val.toNat = 122 := rfl
      have hZ : ('Z' : Char).val.toNat = 90 := rfl
      simp only [Char.toNat]
      omega
    · have hall : ∀ c ∈ ['+', '-', '*', '/', '^', '=', '(', ')'], c.toNat < 128 := by simp
      exact hall c hmark
    · have hbounds := Text.isAsciiDigit_iff.1 hd
      omega
    · decide
  refine ⟨hlt, ?_⟩
  rintro rfl
  exact absurd h (by decide)

/-- A lexeme by itself is given out for its own text. -/
theorem ofText_of_isLexeme (h : IsLexeme t.text.toList) : ofText t.text = [t] := by
  have hsettled : Settled [t] := ⟨by simpa using h, .singleton t⟩
  have hline : toLine [t] = t.text := by
    rw [toLine, List.map_singleton, String.intercalate_singleton]
  rw [← hline]
  exact hsettled.ofText_toLine

/-- **Which tokens are numerals.** A token is a literal if it is digits of any script with at most one
point and at least one digit, and a line feed may end it; a digit counts by its value. Those in ASCII
digits are the literals of ASCII characters without a line feed. They are also the runs that the lexer
gives out for some line, the lone point left out; and they are what it gives out and is a literal. -/
theorem isSome_literal?_iff (t : Token) :
    (t.literal?.isSome ↔ ∃ run, (t.text.toList = run ∨ t.text.toList = run ++ ['\n']) ∧
      IsNumeralOf Text.IsDigit run) ∧
    t.literal? = Literal.read? (t.text.toList.map Numeral.asciiDigit) ∧
    (IsAsciiNumeral t.text.toList ↔
      t.literal?.isSome ∧ ∀ c ∈ t.text.toList, c.toNat < 128 ∧ c ≠ '\n') ∧
    (IsAsciiNumeral t.text.toList ↔
      (∃ text, t ∈ ofText text) ∧ Lexer.IsRun t.text.toList ∧ t ≠ ofChar '.') ∧
    (IsAsciiNumeral t.text.toList ↔ (∃ text, t ∈ ofText text) ∧ t.literal?.isSome) := by
  have hgiven : IsAsciiNumeral t.text.toList → ∃ text, t ∈ ofText text := by
    intro h
    refine ⟨t.text, ?_⟩
    rw [ofText_of_isLexeme (.inl (isAsciiNumeral_iff.1 h).1)]
    exact .head []
  refine ⟨isSome_literal?_iff_isNumeralOf, Literal.readFrom_map_asciiDigit.symm,
    isAsciiNumeral_iff_isSome_literal?, ⟨fun h => ⟨hgiven h, ?_⟩, ?_⟩, ⟨fun h => ⟨hgiven h, ?_⟩, ?_⟩⟩
  · obtain ⟨hrun, hpoint⟩ := isAsciiNumeral_iff.1 h
    exact ⟨hrun, fun heq => hpoint (eq_ofChar_iff.1 heq)⟩
  · rintro ⟨-, hrun, hpoint⟩
    exact isAsciiNumeral_iff.2 ⟨hrun, fun heq => hpoint (eq_ofChar_iff.2 heq)⟩
  · exact (isAsciiNumeral_iff_isSome_literal?.1 h).1
  · rintro ⟨⟨text, hmem⟩, hliteral⟩
    refine isAsciiNumeral_iff_isSome_literal?.2 ⟨hliteral, fun c hc => ?_⟩
    exact ascii_of_isNotation (isNotation_of_mem_ofText hmem hc)

/-- A literal need not be in ASCII digits: the three of another script is one. -/
theorem not_forall_isAsciiNumeral :
    ¬ ∀ t : Token, t.literal?.isSome ↔ IsAsciiNumeral t.text.toList := by
  intro h
  have hliteral : (⟨"٣"⟩ : Token).literal?.isSome := by decide
  obtain ⟨-, hascii⟩ := isAsciiNumeral_iff_isSome_literal?.1 ((h ⟨"٣"⟩).1 hliteral)
  exact absurd hascii (by simp)

/-- Nor need it end with its last digit or point. -/
example : (⟨"1.\n"⟩ : Token).literal? = some ⟨1, 0⟩ ∧ (⟨"1\n\n"⟩ : Token).literal? = none := by
  decide

end Token

end LineCalc
