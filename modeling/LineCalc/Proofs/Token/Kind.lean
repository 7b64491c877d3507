import LineCalc.Token.Basic
/-!
# LineCalc — what a token is, by its text

`Token.kind` looks a token's text up in one pass. Here each kind is read back as a condition on the
token alone: an operator, a parenthesis or the sign of an assignment is one fixed token, a numeral
is whatever spells a literal (`kind_eq_numeral_iff`), and a name is a single ASCII letter
(`kind_eq_letter_iff`). No token answers to two of these, so the order of the look-up is immaterial.
-/

namespace LineCalc

namespace Operator

/-- The character that writes an operator. -/
def char : Operator → Char
  | add => '+'
  | sub => '-'
  | mul => '*'
  | div => '/'
  | pow => '^'

/-- Whether an operator is a product or a quotient. -/
def isMultiplicative : Operator → Bool
  | mul => true
  | div => true
  | _ => false

theorem ofChar?_eq_some_iff {c : Char} {op : Operator} : ofChar? c = some op ↔ c = op.char := by
  constructor
  · intro h
    unfold ofChar? at h
    split at h <;> first | (cases h; rfl) | cases h
  · rintro rfl
    cases op <;> rfl

end Operator

namespace Token

/-- The token that writes an operator. -/
def ofOperator (op : Operator) : Token :=
  ofChar op.char

@[simp] theorem toList_text_ofChar (c : Char) : (ofChar c).text.toList = [c] := by
  simp [ofChar]

/-- A token is that of one character exactly if its text is that character. -/
theorem eq_ofChar_iff {t : Token} {c : Char} : t = ofChar c ↔ t.text.toList = [c] := by
  constructor
  · rintro rfl
    exact toList_text_ofChar c
  · intro h
    obtain ⟨text⟩ := t
    have hc : text = String.singleton c := by
      rw [← String.toList_inj, String.toList_singleton]
      exact h
    rw [hc, ofChar]

theorem text_injective {t u : Token} (h : t.text = u.text) : t = u := by
  obtain ⟨text⟩ := t
  obtain ⟨text'⟩ := u
  exact congrArg Token.mk h

theorem ofChar_injective {c d : Char} (h : ofChar c = ofChar d) : c = d := by
  have := eq_ofChar_iff.1 h
  simpa using this

/-- A token whose text is not one character can only be a literal. -/
theorem kind_eq_literalKind {t : Token} (h : ∀ c, t ≠ ofChar c) : t.kind = t.literalKind := by
  unfold kind
  split
  · next c hc => exact absurd (eq_ofChar_iff.2 hc) (h c)
  · rfl

theorem kind_ofChar (c : Char) : (ofChar c).kind =
    match Operator.ofChar? c with
    | some op => .operator op
    | none =>
      if c = '(' then .opening
      else if c = ')' then .closing
      else if c = '=' then .assign
      else if Text.isAsciiLetter c then .letter
      else (ofChar c).literalKind := by
  have htext := toList_text_ofChar c
  unfold kind
  split
  · next d hd =>
    rw [htext] at hd
    cases hd
    rfl
  · next hne => exact absurd htext (hne c)

/-- A literal of one character is a digit. -/
theorem digitValue?_of_literal? {c : Char} {n : Literal} (h : (ofChar c).literal? = some n) :
    ∃ d, Text.digitValue? c = some d := by
  rw [literal?, toList_text_ofChar, Literal.read?, Literal.readFrom] at h
  split at h
  · simp at h
  · split at h
    · simp [Literal.readFrom] at h
    · split at h
      · next d hd => exact ⟨d, hd⟩
      · cases h

/-- An ASCII letter is no digit. -/
theorem digitValue?_of_isAsciiLetter {c : Char} (h : Text.isAsciiLetter c) :
    Text.digitValue? c = none := by
  have hc : 58 ≤ c.toNat ∧ c.toNat < 128 := by
    simp only [Text.isAsciiLetter, Bool.or_eq_true, Bool.and_eq_true, decide_eq_true_eq,
      Char.le_def, UInt32.le_iff_toNat_le] at h
    simp only [Char.toNat]
    have ha : ('a' : Char).val.toNat = 97 := rfl
    have hz : ('z' : Char).val.toNat = 122 := rfl
    have hA : ('A' : Char).val.toNat = 65 := rfl
    have hZ : ('Z' : Char).val.toNat = 90 := rfl
    omega
  rw [Text.digitValue?, if_pos hc.2, Text.digitAmong, if_neg (by omega), if_neg (by omega),
    Text.digitAmong]

theorem literal?_of_isAsciiLetter {c : Char} (h : Text.isAsciiLetter c) :
    (ofChar c).literal? = none := by
  rw [Option.eq_none_iff_forall_ne_some]
  intro n hn
  obtain ⟨d, hd⟩ := digitValue?_of_literal? hn
  rw [digitValue?_of_isAsciiLetter h] at hd
  cases hd

@[simp] theorem literal?_ofOperator (op : Operator) : (ofOperator op).literal? = none := by
  cases op <;> rfl

@[simp] theorem kind_ofOperator (op : Operator) : (ofOperator op).kind = .operator op := by
  cases op <;> rfl

@[simp] theorem kind_opening : (ofChar '(').kind = .opening := rfl

@[simp] theorem kind_closing : (ofChar ')').kind = .closing := rfl

@[simp] theorem kind_assign : (ofChar '=').kind = .assign := rfl

/-- An ASCII letter is a name: it writes nothing else. -/
theorem kind_of_isAsciiLetter {c : Char} (h : Text.isAsciiLetter c) :
    (ofChar c).kind = .letter := by
  have hne : ∀ d, Text.isAsciiLetter d = false → c ≠ d := by
    rintro d hd rfl
    rw [hd] at h
    cases h
  have hop : Operator.ofChar? c = none := by
    rw [Option.eq_none_iff_forall_ne_some]
    intro op hop
    exact hne op.char (by cases op <;> rfl) (Operator.ofChar?_eq_some_iff.1 hop)
  rw [kind_ofChar, hop]
  simp [hne '(' rfl, hne ')' rfl, hne '=' rfl, h]

/-! ## Each kind, read back -/

/-- **What a token can be.** The seven cases exclude one another by the kind they name. -/
theorem kind_cases (t : Token) :
    (∃ op, t = ofOperator op) ∨ t = ofChar '(' ∨ t = ofChar ')' ∨ t = ofChar '=' ∨
      (∃ c, Text.isAsciiLetter c ∧ t = ofChar c) ∨
      (∃ n, t.literal? = some n ∧ t.kind = .numeral n) ∨
      (t.literal? = none ∧ t.kind = .other) := by
  have hlit : t.kind = t.literalKind →
      (∃ n, t.literal? = some n ∧ t.kind = .numeral n) ∨
        (t.literal? = none ∧ t.kind = .other) := by
    intro h
    rw [h, literalKind]
    cases t.literal? with
    | none => exact .inr ⟨rfl, rfl⟩
    | some n => exact .inl ⟨n, rfl, rfl⟩
  by_cases h : ∃ c, t = ofChar c
  · obtain ⟨c, rfl⟩ := h
    cases hop : Operator.ofChar? c with
    | some op => exact .inl ⟨op, by rw [ofOperator, Operator.ofChar?_eq_some_iff.1 hop]⟩
    | none =>
      by_cases h1 : c = '('
      · exact .inr (.inl (by rw [h1]))
      by_cases h2 : c = ')'
      · exact .inr (.inr (.inl (by rw [h2])))
      by_cases h3 : c = '='
      · exact .inr (.inr (.inr (.inl (by rw [h3]))))
      by_cases h4 : Text.isAsciiLetter c
      · exact .inr (.inr (.inr (.inr (.inl ⟨c, h4, rfl⟩))))
      refine .inr (.inr (.inr (.inr (.inr (hlit ?_)))))
      rw [kind_ofChar, hop]
      simp [h1, h2, h3, h4]
  · exact .inr (.inr (.inr (.inr (.inr (hlit (kind_eq_literalKind fun c hc => h ⟨c, hc⟩))))))

/-- The token of a kind that only one token has. -/
def Kind.token? : Kind → Option Token
  | .operator op => some (ofOperator op)
  | .opening => some (ofChar '(')
  | .closing => some (ofChar ')')
  | .assign => some (ofChar '=')
  | _ => none

theorem eq_of_token?_kind {t u : Token} (h : t.kind.token? = some u) : t = u := by
  rcases kind_cases t with ⟨op, rfl⟩ | rfl | rfl | rfl | ⟨c, hc, rfl⟩ | ⟨n, -, hn⟩ | ⟨-, hn⟩
  case inl => simpa [Kind.token?] using h
  case inr.inr.inr.inr.inl => simp [kind_of_isAsciiLetter hc, Kind.token?] at h
  all_goals simp_all [Kind.token?]

theorem kind_eq_operator_iff {t : Token} {op : Operator} :
    t.kind = .operator op ↔ t = ofOperator op := by
  refine ⟨fun h => eq_of_token?_kind (by rw [h]; rfl), ?_⟩
  rintro rfl
  exact kind_ofOperator op

theorem kind_eq_opening_iff {t : Token} : t.kind = .opening ↔ t = ofChar '(' := by
  refine ⟨fun h => eq_of_token?_kind (by rw [h]; rfl), ?_⟩
  rintro rfl
  exact kind_opening

theorem kind_eq_closing_iff {t : Token} : t.kind = .closing ↔ t = ofChar ')' := by
  refine ⟨fun h => eq_of_token?_kind (by rw [h]; rfl), ?_⟩
  rintro rfl
  exact kind_closing

theorem kind_eq_assign_iff {t : Token} : t.kind = .assign ↔ t = ofChar '=' := by
  refine ⟨fun h => eq_of_token?_kind (by rw [h]; rfl), ?_⟩
  rintro rfl
  exact kind_assign

/-- **A numeral is what spells a literal.** -/
theorem kind_eq_numeral_iff {t : Token} {n : Literal} :
    t.kind = .numeral n ↔ t.literal? = some n := by
  rcases kind_cases t with ⟨op, rfl⟩ | rfl | rfl | rfl | ⟨c, hc, rfl⟩ | ⟨m, hm, hk⟩ | ⟨hl, hk⟩
  · simp
  · exact ⟨fun h => by simp at h, fun h => by cases h⟩
  · exact ⟨fun h => by simp at h, fun h => by cases h⟩
  · exact ⟨fun h => by simp at h, fun h => by cases h⟩
  · simp [kind_of_isAsciiLetter hc, literal?_of_isAsciiLetter hc]
  · simp [hm, hk]
  · simp [hl, hk]

theorem isSome_literal?_eq (t : Token) : t.literal?.isSome =
    match t.kind with
    | .numeral _ => true
    | _ => false := by
  cases hl : t.literal? with
  | some n => rw [kind_eq_numeral_iff.2 hl, Option.isSome_some]
  | none =>
    split
    · next n hk => simp [kind_eq_numeral_iff.1 hk] at hl
    · rfl

/-- **A name is one ASCII letter.** -/
theorem kind_eq_letter_iff {t : Token} :
    t.kind = .letter ↔ ∃ c, Text.isAsciiLetter c ∧ t = ofChar c := by
  constructor
  · intro h
    rcases kind_cases t with ⟨op, rfl⟩ | rfl | rfl | rfl | hc | ⟨n, -, hn⟩ | ⟨-, hn⟩
    case inr.inr.inr.inr.inl => exact hc
    all_goals simp_all
  · rintro ⟨c, hc, rfl⟩
    exact kind_of_isAsciiLetter hc

theorem isLetter_iff {t : Token} : t.isLetter ↔ t.kind = .letter := by
  simp [isLetter]

end Token

end LineCalc
