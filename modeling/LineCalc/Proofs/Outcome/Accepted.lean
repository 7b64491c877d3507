import LineCalc.Proofs.Outcome.Dispatch
import LineCalc.Proofs.Outcome.Substitution
/-!
# LineCalc — lines with a value

A line has a plain value exactly if it is an expression whose names are all bound, and it assigns to
a name exactly if it is that name's assignment and all names of its value are bound. This is so over
any points, none included: only a plot looks at them. Of the variables it matters which names are
bound and never to what, so a line that was accepted is accepted again as long as no name is lost
(`IsAssignmentLine.mono`).
-/

namespace LineCalc

open Grammar

variable {V W : Type} {limit : Int} {ts : List Token} {name : String}

/-! ## More names -/

section

variable {scope : String → Option V} {scope' : String → Option W}
variable (hscope : ∀ n, (scope n).isSome → (scope' n).isSome)
include hscope

/-- A name that is bound is not lost. -/
theorem Grammar.Unbound.anti (h : Unbound scope' ts name) : Unbound scope ts name := by
  obtain ⟨t, ht, hletter, rfl, hnone⟩ := h
  refine ⟨t, ht, hletter, rfl, ?_⟩
  by_contra hsome
  have hbound := hscope t.text (Option.isSome_iff_ne_none.2 hsome)
  rw [hnone] at hbound
  cases hbound

/-- **An expression without unbound names stays one.** -/
theorem IsExpressionLine.mono (h : IsExpressionLine limit scope ts)
    (hnone : ∀ n, ¬ Unbound scope ts n) :
    IsExpressionLine limit scope' ts ∧ ∀ n, ¬ Unbound scope' ts n := by
  have hnone' : ∀ n, ¬ Unbound scope' ts n := fun n hn => hnone n (hn.anti hscope)
  exact ⟨⟨h.1, h.2.1, fun m _ hm => absurd hm (hnone' m)⟩, hnone'⟩

/-- **And so does an assignment**, to the same name. -/
theorem IsAssignmentLine.mono (h : IsAssignmentLine limit scope ts name) :
    IsAssignmentLine limit scope' ts name := by
  obtain ⟨t, rest, hts, hletter, hname, hexpr, hnone⟩ := h
  exact ⟨t, rest, hts, hletter, hname, hexpr, fun n hn => hnone n (hn.anti hscope)⟩

end

/-- The sign is among the tokens of an assignment. -/
theorem IsAssignmentLine.sign_mem {scope : String → Option V}
    (h : IsAssignmentLine limit scope ts name) : Assignment.sign ∈ ts := by
  obtain ⟨t, rest, rfl, -⟩ := h
  exact .tail _ (.head _)

namespace Outcome

variable [Arithmetic V] {scope : String → Option V} {env : Environment V} {domain : List V}
variable {text : String}

/-- **The lines with a plain value.** -/
theorem exists_ofLine_eq_value_iff : (∃ v, ofLine limit env domain text = .value v) ↔
    IsExpressionLine limit env.value? (Token.ofText text) ∧
      ∀ n, ¬ Unbound env.value? (Token.ofText text) n := by
  constructor
  · rintro ⟨v, hv⟩
    have hsign := sign_notMem_of_ofLine_eq_value hv
    rw [ofLine_eq_ofExpression hsign] at hv
    obtain ⟨-, hvalue⟩ := ofExpression_eq_value hv
    obtain ⟨hexpr, hnone⟩ := Reckoner.exists_evaluate_eq_ok_iff.1 ⟨v, hvalue⟩
    exact ⟨⟨hsign, hexpr, fun m _ hm => absurd hm (hnone m)⟩, hnone⟩
  · rintro ⟨⟨hsign, hexpr, -⟩, hnone⟩
    obtain ⟨v, hv⟩ := Reckoner.exists_evaluate_eq_ok_iff.2 ⟨hexpr, hnone⟩
    have hunknowns := (unknowns_eq_nil_iff_unbound hexpr).2 hnone
    refine ⟨v, ?_⟩
    rw [ofLine_eq_ofExpression hsign, ofExpression, hunknowns]
    simp only [ofTokens, hv]

/-- An expression assigns to no name. -/
theorem ofExpression_ne_assigned {v : V} :
    ofExpression limit scope ts domain ≠ .assigned name v := by
  intro h
  unfold ofExpression at h
  split at h
  · unfold ofTokens at h
    split at h <;> cases h
  · unfold ofPlot at h
    split at h <;> cases h
  · cases h

/-- **The lines that assign to a name.** -/
theorem exists_ofLine_eq_assigned_iff : (∃ v, ofLine limit env domain text = .assigned name v) ↔
    IsAssignmentLine limit env.value? (Token.ofText text) name := by
  constructor
  · rintro ⟨v, hv⟩
    by_cases hsign : Assignment.sign ∈ Token.ofText text
    · rw [ofLine_of_sign_mem hsign] at hv
      cases ha : Assignment.ofTokens (Token.ofText text) with
      | error e =>
        rw [ha] at hv
        cases hv
      | ok a =>
        rw [ha] at hv
        rcases ofAssignment_cases limit env.value? a with ⟨hexpr, hnone, w, hw⟩ | ⟨-, e, names, he⟩
        · have heq := hw.symm.trans hv
          cases heq
          exact isAssignmentLine_iff.2 ⟨a, ha, rfl, hexpr, hnone⟩
        · have heq := he.symm.trans hv
          cases heq
    · rw [ofLine_eq_ofExpression hsign] at hv
      exact absurd hv ofExpression_ne_assigned
  · intro h
    obtain ⟨a, ha, rfl, hform⟩ := isAssignmentLine_iff.1 h
    rw [ofLine_of_sign_mem h.sign_mem, ha]
    rcases ofAssignment_cases limit env.value? a with ⟨-, -, hv⟩ | ⟨hno, -⟩
    · exact hv
    · exact absurd hform hno

end Outcome

end LineCalc
