import LineCalc.Proofs.Change
import LineCalc.Proofs.Outcome.Points
/-!
# LineCalc — samples point by point

A plot is nothing but evaluation, point by point: its pairs are the points of the domain in their
order, each with the value of the tokens once the name is bound to it (`samples_eq_ok_iff`). And it
does not fail somewhere on the way. What goes wrong with a reading at one point goes wrong with it
at every other, in the same way (`Plot.evaluate_bind_eq_error`), so that a plot over points has an
error exactly if each of its points has that error (`samples_eq_error_iff`).
-/

namespace LineCalc

namespace Plot

section

variable {V : Type} [Arithmetic V] {limit : Int} {scope : String → Option V} {name : String}
variable {ts : List Token} {domain : List V} {e : ExprError}

/-- One sample is its point with the value there. -/
theorem sample_eq_ok_iff {x : V} {pair : V × V} : sample limit scope name ts x = .ok pair ↔
    pair.1 = x ∧ Reckoner.evaluate limit (bind scope name x) ts = .ok pair.2 := by
  obtain ⟨x', y⟩ := pair
  rw [sample]
  cases Reckoner.evaluate limit (bind scope name x) ts with
  | error e => simp [Except.map]
  | ok y' => simp [Except.map, eq_comm]

/-- **The samples of a domain**, one for each point and in the order of the points. -/
theorem samples_eq_ok_iff {pairs : List (V × V)} : samples limit scope name ts domain = .ok pairs ↔
    List.Forall₂ (fun x pair =>
      pair.1 = x ∧ Reckoner.evaluate limit (bind scope name x) ts = .ok pair.2) domain pairs := by
  simp only [samples, mapM_eq_ok_iff, sample_eq_ok_iff]

/-- **What goes wrong at one point goes wrong at every other.** -/
theorem evaluate_bind_eq_error (x : V) {y : V}
    (h : Reckoner.evaluate limit (bind scope name y) ts = .error e) :
    Reckoner.evaluate limit (bind scope name x) ts = .error e := by
  -- both come to the verdict of one scan, which sees that the name is bound, and not to what
  have hverdict : ∀ z, Reckoner.evaluate limit (bind scope name z) ts = .error e ↔
      Scan.verdict limit (fun n => decide (n = name) || (scope n).isSome) ts = .error e := by
    intro z
    rw [← isSome_bind scope name z, ← Reckoner.map_evaluate, map_eq_error_iff]
  rw [hverdict] at h ⊢
  exact h

/-- **So a plot goes wrong as each of its points does**, if it has a point. -/
theorem samples_eq_error_iff : samples limit scope name ts domain = .error e ↔
    domain ≠ [] ∧ ∀ x, Reckoner.evaluate limit (bind scope name x) ts = .error e := by
  constructor
  · intro h
    obtain ⟨x, hx, hsample⟩ := exists_of_mapM_eq_error h
    exact ⟨List.ne_nil_of_mem hx, fun y => evaluate_bind_eq_error y (map_eq_error_iff.1 hsample)⟩
  · rintro ⟨hdomain, h⟩
    cases domain with
    | nil => exact absurd rfl hdomain
    | cons x rest =>
      rw [samples, List.mapM_cons, sample, h x]
      rfl

end

/-- **Samples are values, point by point, with one verdict for all points.** A plot has one pair for
each point of the domain, in order: the point, and the value of the tokens among the variables with
the name bound to the point, by a definition of any wording. Or it has an error, which is the one of
every point; an error at one value of the name is an error at all. A session that plots a line has
the variables it had. -/
theorem samples_pointwise (limit : Int) (env : Environment Float) (name : String)
    (ts : List Token) (wording : Float → String) (domain : List Float) :
    let value := fun x => Reckoner.evaluate limit (env.set name ⟨wording x, x⟩).value? ts
    (∀ pairs, samples limit env.value? name ts domain = .ok pairs ↔
        List.Forall₂ (fun x pair => pair.1 = x ∧ value x = .ok pair.2) domain pairs) ∧
      (∀ e, samples limit env.value? name ts domain = .error e ↔
        domain ≠ [] ∧ ∀ x, value x = .error e) ∧
      (∀ x y e, value x = .error e → value y = .error e) ∧
      ∀ (d : Desk) (line name : String) (pairs : List (Float × Float)),
        d.evaluate line = .plotted name pairs →
          (d.submitLine line).1.session.environment = d.session.environment := by
  have hbind : ∀ x, (env.set name ⟨wording x, x⟩).value? = bind env.value? name x :=
    fun x => env.value?_set name ⟨wording x, x⟩
  simp only [hbind]
  refine ⟨fun pairs => samples_eq_ok_iff, fun e => samples_eq_error_iff,
    fun x y e h => evaluate_bind_eq_error y h, fun d line name pairs h => ?_⟩
  have hstate := d.toState_submitLine line
  cases hsubmitted : nonblank? line with
  | none =>
    rw [hsubmitted, Desk.changeOf, Change.apply_nothing] at hstate
    exact congrArg SavedState.environment hstate
  | some submitted =>
    obtain ⟨-, rfl⟩ := nonblank?_eq_some_iff.1 hsubmitted
    rw [hsubmitted, Desk.changeOf, h] at hstate
    exact congrArg SavedState.environment hstate

end Plot

end LineCalc
