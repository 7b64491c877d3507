import LineCalc.Proofs.Reckoner.Grammar
import LineCalc.Proofs.Unknowns
/-!
# LineCalc — where a reading stops

`Refuses` is the counterpart of `Takes`: the four ways in which a token is refused, each with its
error. A reading without a value had no tokens, came to a token that it refuses after others that it
took, or came to an end too early (`evaluate_eq_error_cases`).

So the reckoner and the inspector agree on what is unknown (`unknowns_of_evaluate`), although the
inspector goes over the tokens without regard to their form. No token that a reckoner takes is free
(`isFree_of_takes`), and where it stops at a name, that is the first free one.
-/

namespace LineCalc

namespace Reckoner

variable {V : Type} [Arithmetic V] {limit : Int} {scope : String → Option V}
variable {r r' : Reckoner V} {t : Token} {ts : List Token} {e : ExprError} {name : String}

/-! ## Refused tokens -/

/-- What a token does to a reckoner that refuses it. -/
inductive Refuses (limit : Int) (scope : String → Option V) :
    Reckoner V → Token → ExprError → Prop where
  | tooDeep (l : Level V) (outer : List (Level V)) (h : limit < (outer.length : Int) + 1) :
      Refuses limit scope ⟨none, l, outer⟩ (Token.ofChar '(') (.tooDeep limit)
  | unbound (l : Level V) (outer : List (Level V)) {t : Token} (h : t.isLetter)
      (hv : scope t.text = none) : Refuses limit scope ⟨none, l, outer⟩ t (.unknownVariable t.text)
  | noOperand (l : Level V) (outer : List (Level V)) {t : Token} (hplus : t ≠ Token.ofOperator .add)
      (hminus : t ≠ Token.ofOperator .sub) (hopening : t ≠ Token.ofChar '(')
      (hliteral : t.literal? = none) (hletter : ¬ t.isLetter) :
      Refuses limit scope ⟨none, l, outer⟩ t (.unexpected t.text)
  | noOperator (v : V) (l : Level V) (outer : List (Level V)) {t : Token}
      (hop : ∀ op, t ≠ Token.ofOperator op) (hclosing : t = Token.ofChar ')' → outer = []) :
      Refuses limit scope ⟨some v, l, outer⟩ t (.unexpected t.text)

theorem refuses_of_stepOperand {l : Level V} {outer : List (Level V)}
    (h : stepOperand limit scope ⟨none, l, outer⟩ t = .error e) :
    Refuses limit scope ⟨none, l, outer⟩ t e := by
  unfold stepOperand at h
  split at h
  · cases h
  · cases h
  · next hk =>
    split at h
    · next hlt =>
      cases h
      rw [Token.kind_eq_opening_iff.1 hk]
      exact .tooDeep l outer hlt
    · cases h
  · cases h
  · next hk =>
    split at h
    · cases h
    · next hv =>
      cases h
      exact .unbound l outer (Token.isLetter_iff.2 hk) hv
  · next hplus hminus hopening hliteral hletter =>
    cases h
    refine .noOperand l outer (mt Token.kind_eq_operator_iff.2 hplus)
      (mt Token.kind_eq_operator_iff.2 hminus) (mt Token.kind_eq_opening_iff.2 hopening) ?_
      (mt Token.isLetter_iff.1 hletter)
    refine Option.eq_none_iff_forall_ne_some.2 fun n hn => ?_
    exact hliteral n (Token.kind_eq_numeral_iff.2 hn)

theorem refuses_of_stepOperator {v : V} {l : Level V} {outer : List (Level V)}
    (h : stepOperator ⟨some v, l, outer⟩ v t = .error e) :
    Refuses limit scope ⟨some v, l, outer⟩ t e := by
  unfold stepOperator at h
  split at h
  · cases h
  · cases h
  · next hop hclosing =>
    cases h
    refine .noOperator v l outer (fun op heq => hop op (Token.kind_eq_operator_iff.2 heq)) ?_
    intro heq
    cases outer with
    | nil => rfl
    | cons l' outer => exact absurd rfl (hclosing l' outer (Token.kind_eq_closing_iff.2 heq))

theorem step_eq_error_of_refuses (h : Refuses limit scope r t e) :
    r.step limit scope t = .error e := by
  cases h with
  | tooDeep l outer h => simp [step, stepOperand, h]
  | unbound l outer h hv => simp [step, stepOperand, Token.isLetter_iff.1 h, hv]
  | noOperand l outer hplus hminus hopening hliteral hletter =>
    rcases Token.kind_cases t with ⟨op, rfl⟩ | rfl | rfl | rfl | ⟨c, hc, rfl⟩ | ⟨n, hn, -⟩ | ⟨-, hk⟩
    · cases op with
      | add => exact absurd rfl hplus
      | sub => exact absurd rfl hminus
      | mul | div | pow => rfl
    · exact absurd rfl hopening
    · rfl
    · rfl
    · exact absurd (Token.isLetter_iff.2 (Token.kind_of_isAsciiLetter hc)) hletter
    · cases hliteral.symm.trans hn
    · simp [step, stepOperand, hk]
  | noOperator v l outer hop hclosing =>
    have hnone : ∀ op, t.kind ≠ .operator op := fun op => mt Token.kind_eq_operator_iff.1 (hop op)
    have hparen : t.kind = .closing → outer = [] :=
      fun hk => hclosing (Token.kind_eq_closing_iff.1 hk)
    simp only [step, stepOperator]
    split
    · next op hk => exact absurd hk (hnone op)
    · next l' outer' hk => cases hparen hk
    · rfl

/-- **What a step can refuse.** A token is refused in one of four ways, or taken. -/
theorem step_eq_error_iff : r.step limit scope t = .error e ↔ Refuses limit scope r t e := by
  refine ⟨fun h => ?_, step_eq_error_of_refuses⟩
  obtain ⟨operand, l, outer⟩ := r
  cases operand with
  | none => exact refuses_of_stepOperand h
  | some v => exact refuses_of_stepOperator h

/-! ## Readings without a value -/

/-- **Tokens are taken up to the one that is refused.** -/
theorem exists_refuses_of_feed_eq_error (h : feed limit scope r ts = .error e) :
    ∃ before t after r', ts = before ++ t :: after ∧ feed limit scope r before = .ok r' ∧
      Refuses limit scope r' t e := by
  induction ts generalizing r with
  | nil => cases h
  | cons t ts ih =>
    rw [feed_cons] at h
    cases hs : r.step limit scope t with
    | error e' =>
      rw [hs] at h
      cases h
      exact ⟨[], t, ts, r, rfl, rfl, step_eq_error_iff.1 hs⟩
    | ok r₁ =>
      rw [hs] at h
      obtain ⟨before, u, after, r', rfl, hbefore, hrefuses⟩ := ih h
      refine ⟨t :: before, u, after, r', rfl, ?_, hrefuses⟩
      rw [feed_cons_of_takes (step_eq_ok_iff.1 hs)]
      exact hbefore

theorem finish_eq_error_cases (h : r.finish = .error e) :
    e = .unexpectedEnd ∨ e = .unmatchedParen := by
  unfold finish at h
  split at h <;> cases h
  · exact .inl rfl
  · exact .inr rfl

/-- **Why a reading has no value.** There was no token, a token was refused behind others that were
taken, or all were taken and it ended too early. -/
theorem evaluate_eq_error_cases (h : evaluate limit scope ts = .error e) :
    (ts = [] ∧ e = .empty) ∨
      (∃ before t after r, ts = before ++ t :: after ∧ feed limit scope initial before = .ok r ∧
        Refuses limit scope r t e) ∨
      (∃ r, feed limit scope initial ts = .ok r ∧ (e = .unexpectedEnd ∨ e = .unmatchedParen)) := by
  by_cases hnil : ts = []
  · rw [hnil] at h
    cases h
    exact .inl ⟨hnil, rfl⟩
  · rw [evaluate_eq_feed hnil] at h
    cases hf : feed limit scope initial ts with
    | error e' =>
      rw [hf] at h
      cases h
      exact .inr (.inl (exists_refuses_of_feed_eq_error hf))
    | ok r =>
      rw [hf] at h
      exact .inr (.inr ⟨r, rfl, finish_eq_error_cases h⟩)

/-! ## Unknown names -/

/-- **No token that is taken is free.** -/
theorem isFree_of_takes (h : Takes limit scope r t r') :
    t.isFree (fun n => (scope n).isSome) = false := by
  cases h with
  | plus l outer => rfl
  | minus l outer => rfl
  | opening l outer h => rfl
  | literal l outer h => simp [Token.isFree, Token.kind_eq_numeral_iff.2 h]
  | name l outer h hv => simp [Token.isFree_eq_of_isLetter h, hv]
  | operator v l outer op => simp [Token.isFree]
  | closing v l l' outer => rfl

/-- So none of those is that are taken one after the other. -/
theorem unknowns_of_feed_eq_ok (h : feed limit scope r ts = .ok r') :
    unknowns (fun n => (scope n).isSome) ts = [] := by
  rw [unknowns_eq_nil_iff]
  induction ts generalizing r with
  | nil => exact List.forall_mem_nil _
  | cons t ts ih =>
    obtain ⟨r₁, htakes, hrest⟩ := exists_takes_of_feed_cons h
    exact List.forall_mem_cons.2 ⟨isFree_of_takes htakes, ih hrest⟩

end Reckoner

/-- A free token behind tokens that are not free is the first free variable. -/
theorem unknowns_append_cons {bound : String → Bool} {before after : List Token} {t : Token}
    (hbefore : unknowns bound before = []) (ht : t.isFree bound) :
    ∃ rest, unknowns bound (before ++ t :: after) = t.text :: rest := by
  have hnone : before.filter (·.isFree bound) = [] := by
    refine List.filter_eq_nil_iff.2 fun u hu => ?_
    simp only [unknowns_eq_nil_iff.1 hbefore u hu, Bool.false_eq_true, not_false_eq_true]
  rw [unknowns, List.filter_append, hnone, List.nil_append, List.filter_cons_of_pos ht,
    List.map_cons, List.eraseDups_cons]
  exact ⟨_, rfl⟩

namespace Reckoner

variable {V : Type} [Arithmetic V]

/-- **Inspector and reckoner agree on what is unknown.** Whatever the tokens, if the reckoner stops
at a name without a value, that name is the first free variable; and if it finds a value, there is
no free variable. -/
theorem unknowns_of_evaluate (limit : Int) (scope : String → Option V) (tokens : List Token) :
    (∀ name, evaluate limit scope tokens = .error (.unknownVariable name) →
      ∃ rest, unknowns (fun n => (scope n).isSome) tokens = name :: rest) ∧
    (∀ v, evaluate limit scope tokens = .ok v →
      unknowns (fun n => (scope n).isSome) tokens = []) := by
  refine ⟨fun name h => ?_, fun v h => ?_⟩
  · rcases evaluate_eq_error_cases h with ⟨-, he⟩ | ⟨before, t, after, r, rfl, hbefore, hrefuses⟩ |
      ⟨r, -, he | he⟩
    · cases he
    · cases hrefuses with
      | unbound l outer hletter hv =>
        refine unknowns_append_cons (unknowns_of_feed_eq_ok hbefore) ?_
        rw [Token.isFree_eq_of_isLetter hletter, hv]
        rfl
    · cases he
    · cases he
  · obtain ⟨r, hfeed, -⟩ := evaluate_eq_ok_iff.1 h
    exact unknowns_of_feed_eq_ok hfeed

/-- The tokens of `(x)y)`, where a sign is missing and a parenthesis is too many. -/
def stray : List Token :=
  [⟨"("⟩, ⟨"x"⟩, ⟨")"⟩, ⟨"y"⟩, ⟨")"⟩]

/-- The first name stops the reckoner where it has no value; the inspector goes on to the second.
With a value for the name, the part in parentheses has no free variable. -/
theorem unknowns_stray :
    evaluate 9 (fun _ => (none : Option Int)) stray = .error (.unknownVariable "x") ∧
      (∃ rest, unknowns (fun _ => false) stray = "x" :: rest) ∧
      evaluate 9 (fun _ => some (3 : Int)) (stray.take 3) = .ok 3 ∧
      unknowns (fun _ => true) (stray.take 3) = [] := by
  have hstops : evaluate 9 (fun _ => (none : Option Int)) stray = .error (.unknownVariable "x") :=
    rfl
  have hvalue : evaluate 9 (fun _ => some (3 : Int)) (stray.take 3) = .ok 3 := rfl
  obtain ⟨hunknown, -⟩ := unknowns_of_evaluate 9 (fun _ => (none : Option Int)) stray
  obtain ⟨-, hknown⟩ := unknowns_of_evaluate 9 (fun _ => some (3 : Int)) (stray.take 3)
  exact ⟨hstops, hunknown "x" hstops, hvalue, hknown 3 hvalue⟩

end Reckoner

end LineCalc
