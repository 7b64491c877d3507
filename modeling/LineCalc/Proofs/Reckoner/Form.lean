import LineCalc.Proofs.Reckoner.Grammar
import LineCalc.Proofs.Reckoner.Scan
/-!
# LineCalc — which tokens have a value

Tokens have a value exactly if they are an expression and all of its names are bound
(`exists_evaluate_eq_ok_iff`). Nothing is asked of the arithmetic here: the error of a reading
depends on the names that are bound and on nothing else, so that the values can be replaced by the
one value of `Unit`, where the signs are no matter and the reckoner is known to read the grammar.
-/

namespace LineCalc

namespace Grammar

variable {V : Type} {scope : String → Option V} {ts : List Token}

/-- The tokens `ts` are an expression that opens at most `limit` parentheses. -/
def IsExpression (limit : Int) (ts : List Token) : Prop :=
  ∃ e : Tree .sum, e.yield = ts ∧ e.nesting ≤ limit.toNat

/-- A name among the tokens `ts` that has no value. -/
def Unbound (scope : String → Option V) (ts : List Token) (name : String) : Prop :=
  ∃ t ∈ ts, t.isLetter ∧ t.text = name ∧ scope name = none

theorem forall_not_unbound_iff :
    (∀ name, ¬ Unbound scope ts name) ↔ ∀ t ∈ ts, t.isLetter → (scope t.text).isSome := by
  constructor
  · intro h t ht hletter
    cases hs : scope t.text with
    | some v => rfl
    | none => exact absurd ⟨t, ht, hletter, rfl, hs⟩ (h t.text)
  · rintro h name ⟨t, ht, hletter, rfl, hs⟩
    have hsome := h t ht hletter
    rw [hs] at hsome
    cases hsome

end Grammar

open Grammar

namespace Reckoner

/-- **The arithmetic of one value.** To reckon over it is to look at the form alone. -/
instance : Arithmetic Unit where
  ofLiteral _ := ()
  neg v := v
  apply _ _ _ := ()

variable {V : Type} [Arithmetic V] {limit : Int} {scope : String → Option V} {ts : List Token}

theorem exists_evaluate_eq_ok_iff_verdict : (∃ v, evaluate limit scope ts = .ok v) ↔
    Scan.verdict limit (fun name => (scope name).isSome) ts = .ok () := by
  rw [← map_evaluate]
  cases evaluate limit scope ts with
  | ok v => exact ⟨fun _ => rfl, fun _ => ⟨v, rfl⟩⟩
  | error e =>
    constructor
    · rintro ⟨v, h⟩
      cases h
    · intro h
      cases h

/-- **Tokens have a value exactly if they are an expression without unbound names.** -/
theorem exists_evaluate_eq_ok_iff : (∃ v, evaluate limit scope ts = .ok v) ↔
    IsExpression limit ts ∧ ∀ name, ¬ Unbound scope ts name := by
  -- of the scope only which names are bound is kept, and that is all the verdict asks
  let form : String → Option Unit := fun name => (scope name).map fun _ => ()
  have hform : ∀ name, (form name).isSome = (scope name).isSome := fun name => Option.isSome_map
  have hneg : Function.Involutive (Arithmetic.neg : Unit → Unit) := fun _ => rfl
  have hvalue : (∃ v, evaluate limit scope ts = .ok v) ↔ ∃ v, evaluate limit form ts = .ok v := by
    rw [exists_evaluate_eq_ok_iff_verdict, exists_evaluate_eq_ok_iff_verdict, funext hform]
  rw [hvalue, forall_not_unbound_iff]
  constructor
  · rintro ⟨v, hv⟩
    obtain ⟨e, rfl, hroom, he⟩ := derives_of_evaluate_eq_ok hneg hv
    refine ⟨⟨e, rfl, hroom⟩, ?_⟩
    intro t ht hletter
    rw [← hform]
    exact e.isSome_value?_iff.1 (by rw [he]; rfl) t ht hletter
  · rintro ⟨⟨e, rfl, hroom⟩, hbound⟩
    have hsome : (e.value? form).isSome := by
      refine e.isSome_value?_iff.2 fun t ht hletter => ?_
      rw [hform]
      exact hbound t ht hletter
    obtain ⟨v, hv⟩ := Option.isSome_iff_exists.1 hsome
    exact ⟨v, evaluate_eq_ok_of_derives hneg ⟨e, rfl, hroom, hv⟩⟩

end Reckoner

end LineCalc
