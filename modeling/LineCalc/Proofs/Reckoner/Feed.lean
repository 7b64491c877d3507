import LineCalc.Proofs.Token.Kind
import LineCalc.Reckoner
/-!
# LineCalc — the reckoner, token by token

`Takes` says once what a token can do to a reckoner: the seven ways in which `step` succeeds, each
with its guard. `feed` takes a list of tokens, and `evaluate` is `feed` followed by `finish`; where
the reckoner stood in the list does not matter to the value. Every fact about a whole reading is an
induction over `feed` whose step is a case analysis of `Takes`.
-/

namespace LineCalc

namespace Reckoner

variable {V : Type} [Arithmetic V] {limit : Int} {scope scope' : String → Option V}
variable {r r' : Reckoner V} {t : Token} {ts us : List Token}

/-- What a token does to a reckoner that takes it. -/
inductive Takes (limit : Int) (scope : String → Option V) :
    Reckoner V → Token → Reckoner V → Prop where
  | plus (l : Level V) (outer : List (Level V)) :
      Takes limit scope ⟨none, l, outer⟩ (Token.ofOperator .add) ⟨none, l, outer⟩
  | minus (l : Level V) (outer : List (Level V)) :
      Takes limit scope ⟨none, l, outer⟩ (Token.ofOperator .sub)
        ⟨none, { l with negative := !l.negative }, outer⟩
  | opening (l : Level V) (outer : List (Level V)) (h : (outer.length : Int) + 1 ≤ limit) :
      Takes limit scope ⟨none, l, outer⟩ (Token.ofChar '(') ⟨none, Level.empty, l :: outer⟩
  | literal (l : Level V) (outer : List (Level V)) {t : Token} {n : Literal}
      (h : t.literal? = some n) :
      Takes limit scope ⟨none, l, outer⟩ t ⟨some (Arithmetic.ofLiteral n), l, outer⟩
  | name (l : Level V) (outer : List (Level V)) {t : Token} {v : V} (h : t.isLetter)
      (hv : scope t.text = some v) : Takes limit scope ⟨none, l, outer⟩ t ⟨some v, l, outer⟩
  | operator (v : V) (l : Level V) (outer : List (Level V)) (op : Operator) :
      Takes limit scope ⟨some v, l, outer⟩ (Token.ofOperator op) ⟨none, l.push v op, outer⟩
  | closing (v : V) (l l' : Level V) (outer : List (Level V)) :
      Takes limit scope ⟨some v, l, l' :: outer⟩ (Token.ofChar ')') ⟨some (l.total v), l', outer⟩

theorem step_eq_ok_of_takes (h : Takes limit scope r t r') : r.step limit scope t = .ok r' := by
  cases h with
  | plus l outer => simp [step, stepOperand]
  | minus l outer => simp [step, stepOperand]
  | opening l outer h =>
    have hle : ¬ limit < (outer.length : Int) + 1 := by omega
    simp [step, stepOperand, hle]
  | literal l outer h => simp [step, stepOperand, Token.kind_eq_numeral_iff.2 h]
  | name l outer h hv => simp [step, stepOperand, Token.isLetter_iff.1 h, hv]
  | operator v l outer op => simp [step, stepOperator]
  | closing v l l' outer => simp [step, stepOperator]

theorem takes_of_stepOperand {l : Level V} {outer : List (Level V)}
    (h : stepOperand limit scope ⟨none, l, outer⟩ t = .ok r') :
    Takes limit scope ⟨none, l, outer⟩ t r' := by
  unfold stepOperand at h
  split at h
  · next hk =>
    cases h
    rw [Token.kind_eq_operator_iff.1 hk]
    exact .plus l outer
  · next hk =>
    cases h
    rw [Token.kind_eq_operator_iff.1 hk]
    exact .minus l outer
  · next hk =>
    split at h
    · cases h
    · next hle =>
      cases h
      rw [Token.kind_eq_opening_iff.1 hk]
      refine .opening l outer ?_
      simp only at hle
      omega
  · next n hk =>
    cases h
    exact .literal l outer (Token.kind_eq_numeral_iff.1 hk)
  · next hk =>
    split at h
    · next v hv =>
      cases h
      exact .name l outer (Token.isLetter_iff.2 hk) hv
    · cases h
  · cases h

theorem takes_of_stepOperator {v : V} {l : Level V} {outer : List (Level V)}
    (h : stepOperator ⟨some v, l, outer⟩ v t = .ok r') :
    Takes limit scope ⟨some v, l, outer⟩ t r' := by
  unfold stepOperator at h
  split at h
  · next op hk =>
    cases h
    rw [Token.kind_eq_operator_iff.1 hk]
    exact .operator v l outer op
  · next l' outer' hk ho =>
    cases h
    simp only at ho
    rw [Token.kind_eq_closing_iff.1 hk, ho]
    exact .closing v l l' outer'
  · cases h

/-- **What a step can do.** A token is taken in one of seven ways, or refused. -/
theorem step_eq_ok_iff : r.step limit scope t = .ok r' ↔ Takes limit scope r t r' := by
  refine ⟨fun h => ?_, step_eq_ok_of_takes⟩
  obtain ⟨operand, l, outer⟩ := r
  cases operand with
  | none => exact takes_of_stepOperand h
  | some v => exact takes_of_stepOperator h

/-! ## Lists of tokens -/

/-- Takes tokens one after the other. -/
def feed (limit : Int) (scope : String → Option V) (r : Reckoner V) (ts : List Token) :
    Except ExprError (Reckoner V) :=
  ts.foldlM (step limit scope) r

@[simp] theorem feed_nil : feed limit scope r [] = .ok r := rfl

theorem feed_cons : feed limit scope r (t :: ts)
    = (r.step limit scope t).bind fun r' => feed limit scope r' ts := rfl

theorem feed_append : feed limit scope r (ts ++ us)
    = (feed limit scope r ts).bind fun r' => feed limit scope r' us := by
  rw [feed, List.foldlM_append]
  rfl

theorem feed_cons_of_takes (h : Takes limit scope r t r') :
    feed limit scope r (t :: ts) = feed limit scope r' ts := by
  rw [feed_cons, step_eq_ok_of_takes h]
  rfl

/-- **Tokens are taken if the first is**, and the others behind it. -/
theorem exists_takes_of_feed_cons (h : feed limit scope r (t :: ts) = .ok r') :
    ∃ r₁, Takes limit scope r t r₁ ∧ feed limit scope r₁ ts = .ok r' := by
  rw [feed_cons] at h
  cases hs : r.step limit scope t with
  | ok r₁ =>
    rw [hs] at h
    exact ⟨r₁, step_eq_ok_iff.1 hs, h⟩
  | error e =>
    rw [hs] at h
    cases h

theorem feed_append_of_eq_ok (h : feed limit scope r ts = .ok r') :
    feed limit scope r (ts ++ us) = feed limit scope r' us := by
  rw [feed_append, h]
  rfl

theorem feed_singleton_of_takes (h : Takes limit scope r t r') :
    feed limit scope r [t] = .ok r' := by
  rw [feed_cons_of_takes h, feed_nil]

/-- The result of a run does not depend on where it started to count. -/
theorem result_run (r : Reckoner V) (n : Nat) (ts : List Token) :
    (run limit scope r n ts).result = (feed limit scope r ts).bind finish := by
  induction ts generalizing r n with
  | nil => rfl
  | cons t ts ih =>
    rw [run, feed_cons]
    cases r.step limit scope t with
    | ok r' => exact ih r' (n + 1)
    | error e => rfl

/-- **The value of an expression**, one token or more, is what feeding it ends in. -/
theorem evaluate_eq_feed (h : ts ≠ []) :
    evaluate limit scope ts = (feed limit scope initial ts).bind finish := by
  cases ts with
  | nil => exact absurd rfl h
  | cons t ts => exact result_run initial 0 (t :: ts)

/-- No tokens have no value, and the reckoner before the first token has none either. -/
theorem evaluate_eq_ok_iff {v : V} : evaluate limit scope ts = .ok v ↔
    ∃ r, feed limit scope initial ts = .ok r ∧ r.finish = .ok v := by
  cases ts with
  | nil => simp [evaluate, read, finish, initial]
  | cons t ts =>
    rw [evaluate_eq_feed (List.cons_ne_nil t ts)]
    cases feed limit scope initial (t :: ts) with
    | ok r => simp [Except.bind]
    | error e => simp [Except.bind]

theorem finish_eq_ok_iff {v : V} : r.finish = .ok v ↔
    ∃ w l, r = ⟨some w, l, []⟩ ∧ l.total w = v := by
  constructor
  · intro h
    obtain ⟨operand, l, outer⟩ := r
    unfold finish at h
    split at h
    · next w ho hl =>
      cases h
      simp only at ho hl
      exact ⟨w, l, by rw [ho, hl], rfl⟩
    · cases h
    · cases h
  · rintro ⟨w, l, rfl, rfl⟩
    rfl

/-! ## What a reading depends on -/

/-- A step asks for the value of its token only if that is a name. -/
theorem step_congr (r : Reckoner V) (h : t.isLetter → scope t.text = scope' t.text) :
    r.step limit scope t = r.step limit scope' t := by
  obtain ⟨operand, l, outer⟩ := r
  cases operand with
  | some v => rfl
  | none =>
    change stepOperand limit scope _ t = stepOperand limit scope' _ t
    unfold stepOperand
    cases hk : t.kind with
    | letter => simp only [h (Token.isLetter_iff.2 hk)]
    | operator op => cases op <;> rfl
    | _ => rfl

theorem feed_congr (r : Reckoner V)
    (h : ∀ t ∈ ts, t.isLetter → scope t.text = scope' t.text) :
    feed limit scope r ts = feed limit scope' r ts := by
  induction ts generalizing r with
  | nil => rfl
  | cons t ts ih =>
    rw [feed_cons, feed_cons, step_congr r (h t (.head ts))]
    congr 1
    funext r'
    exact ih r' fun u hu => h u (.tail t hu)

/-- **An expression depends on the names in it only.** -/
theorem evaluate_congr (h : ∀ t ∈ ts, t.isLetter → scope t.text = scope' t.text) :
    evaluate limit scope ts = evaluate limit scope' ts := by
  cases ts with
  | nil => rfl
  | cons t ts =>
    rw [evaluate_eq_feed (List.cons_ne_nil t ts), evaluate_eq_feed (List.cons_ne_nil t ts),
      feed_congr initial h]

end Reckoner

end LineCalc
