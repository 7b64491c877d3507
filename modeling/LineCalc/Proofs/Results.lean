import Mathlib.Data.List.Forall2
/-!
# LineCalc — results one after the other

Samples, frames and the parts of a state are made of results that may be errors, taken one after the
other. Two in a row have a value if the first has one and the second has one from there
(`bind_eq_ok_iff`); a list has the values of its elements (`mapM_eq_ok_iff`), or the error of one of
them (`exists_of_mapM_eq_error`).
-/

namespace LineCalc

variable {α β ε : Type}

/-! ## Two results -/

/-- What goes on from a result ends well if the result does, and what goes on from it. -/
theorem bind_eq_ok_iff {x : Except ε α} {f : α → Except ε β} {b : β} :
    x >>= f = .ok b ↔ ∃ a, x = .ok a ∧ f a = .ok b := by
  cases x with
  | error e =>
    refine ⟨fun h => (nomatch h), ?_⟩
    rintro ⟨a, h, -⟩
    cases h
  | ok a =>
    refine ⟨fun h => ⟨a, rfl, h⟩, ?_⟩
    rintro ⟨a', h, hf⟩
    cases h
    exact hf

/-- A result is there if each of the two steps to it has one. -/
theorem exists_bind_eq_ok {x : Except ε α} {f : α → Except ε β}
    (hx : ∃ a, x = .ok a) (hf : ∀ a, ∃ b, f a = .ok b) : ∃ b, (x >>= f) = .ok b := by
  obtain ⟨a, rfl⟩ := hx
  exact hf a

/-- An error stays what it is, whatever becomes of values. -/
theorem map_eq_error_iff {f : α → β} {x : Except ε α} {e : ε} :
    x.map f = .error e ↔ x = .error e := by
  cases x <;> simp [Except.map]

variable {f : α → Except ε β} {as : List α} {bs : List β}

/-! ## A list of results -/

/-- **A list is read element by element.** -/
theorem mapM_eq_ok_iff :
    as.mapM f = .ok bs ↔ List.Forall₂ (fun a b => f a = .ok b) as bs := by
  induction as generalizing bs with
  | nil =>
    rw [List.forall₂_nil_left_iff]
    exact ⟨fun h => (Except.ok.inj h).symm, fun h => h ▸ rfl⟩
  | cons a as ih =>
    rw [List.mapM_cons, List.forall₂_cons_left_iff]
    constructor
    · intro h
      obtain ⟨b, hb, h⟩ := bind_eq_ok_iff.1 h
      obtain ⟨bs', hrest, h⟩ := bind_eq_ok_iff.1 h
      cases h
      exact ⟨b, bs', hb, ih.1 hrest, rfl⟩
    · rintro ⟨b, bs', hb, hrest, rfl⟩
      exact bind_eq_ok_iff.2 ⟨b, hb, bind_eq_ok_iff.2 ⟨bs', ih.2 hrest, rfl⟩⟩

/-- What stands in the one of two lists stands across from something in the other. -/
theorem exists_mem_of_forall₂ {R : α → β → Prop} (h : List.Forall₂ R as bs) {b : β} (hb : b ∈ bs) :
    ∃ a ∈ as, R a b := by
  induction h with
  | nil => cases hb
  | cons hfirst _ ih =>
    rcases List.mem_cons.1 hb with rfl | hb
    · exact ⟨_, .head _, hfirst⟩
    · obtain ⟨a, ha, hab⟩ := ih hb
      exact ⟨a, .tail _ ha, hab⟩

/-- Where each element is found again, the list is. -/
theorem mapM_map_eq_ok {f : α → β} {g : β → Except ε α} (h : ∀ a ∈ as, g (f a) = .ok a) :
    (as.map f).mapM g = .ok as :=
  mapM_eq_ok_iff.2 (List.forall₂_map_left_iff.2 (List.forall₂_same.2 h))

/-- Results taken one after the other are all there, or there is an error. -/
theorem exists_mapM_eq_ok_iff :
    (∃ bs, as.mapM f = .ok bs) ↔ ∀ a ∈ as, ∃ b, f a = .ok b := by
  induction as with
  | nil => exact ⟨fun _ a ha => absurd ha List.not_mem_nil, fun _ => ⟨[], rfl⟩⟩
  | cons a as ih =>
    rw [List.forall_mem_cons, ← ih, List.mapM_cons]
    cases f a <;> cases as.mapM f <;> simp [bind, Except.bind, pure, Except.pure]

/-- The first error among results taken one after the other is the error of one of them. -/
theorem exists_of_mapM_eq_error {e : ε} (h : as.mapM f = .error e) : ∃ a ∈ as, f a = .error e := by
  induction as with
  | nil => cases h
  | cons a as ih =>
    rw [List.mapM_cons] at h
    cases ha : f a with
    | error e' =>
      rw [ha] at h
      cases h
      exact ⟨a, .head as, ha⟩
    | ok b =>
      rw [ha] at h
      cases has : as.mapM f with
      | error e' =>
        rw [has] at h
        cases h
        obtain ⟨a', hmem, ha'⟩ := ih has
        exact ⟨a', .tail a hmem, ha'⟩
      | ok bs =>
        rw [has] at h
        cases h

/-- Results that all come to one verdict come to it together, if there are any. -/
theorem forget_mapM {verdict : Except ε Unit}
    (h : ∀ a, (f a).map (fun _ => ()) = verdict) (hne : as ≠ []) :
    (as.mapM f).map (fun _ => ()) = verdict := by
  induction as with
  | nil => exact absurd rfl hne
  | cons a as ih =>
    have ha := h a
    rw [List.mapM_cons]
    cases hfa : f a with
    | error e =>
      rw [hfa] at ha
      exact ha
    | ok b =>
      rw [hfa] at ha
      cases as with
      | nil => exact ha
      | cons a' as =>
        rw [← ih (List.cons_ne_nil a' as)]
        cases (a' :: as).mapM f <;> rfl

end LineCalc
