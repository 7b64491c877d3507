import LineCalc.Proofs.Editor.WellFormed
/-!
# LineCalc — keys one after the other

An editor is driven by the names of keys. A name says which key is meant, and no other name says the
same (`Key.ofName_eq_iff`); names that no key has are one key without a meaning. `pressAll` is what is
left of an editor after a row of keys, and `IsReachable` holds of the editors that any run leads to.
-/

namespace LineCalc

/-! ## Names of keys -/

namespace Key

/-- A character is the name of its key. -/
theorem ofName_singleton (c : Char) : ofName (String.singleton c) = .char c := by
  have hlist : (String.singleton c).toList = [c] := String.toList_singleton c
  have hlength : (String.singleton c).toList.length = 1 := congrArg List.length hlist
  unfold ofName
  split
  case h_10 => rw [hlist]
  -- the names in angle brackets are longer
  all_goals
    next hname =>
      rw [hname] at hlength
      cases hlength

/-- **A key has one name.** -/
theorem ofName_eq_iff {name : String} {key : Key} (hkey : key ≠ .unnamed) :
    ofName name = key ↔ name = key.name := by
  constructor
  · intro h
    unfold ofName at h
    split at h
    case h_10 =>
      split at h
      · next c hlist =>
        subst h
        exact String.toList_injective (hlist.trans (String.toList_singleton c).symm)
      · exact absurd h.symm hkey
    all_goals
      subst h
      rfl
  · rintro rfl
    cases key with
    | char c => exact ofName_singleton c
    | unnamed => exact absurd rfl hkey
    | escape | enter | backspace | left | right | up | down | tab | backTab => rfl

end Key

namespace Editor

variable {e : Editor}

/-! ## Runs of keys -/

/-- The editor after keys, by their names. -/
def pressAll (e : Editor) (names : List String) : Editor :=
  e.performAll (names.map .press)

theorem pressAll_nil (e : Editor) : e.pressAll [] = e :=
  rfl

theorem pressAll_cons (e : Editor) (name : String) (names : List String) :
    e.pressAll (name :: names) = (e.press (Key.ofName name)).1.pressAll names :=
  rfl

theorem pressAll_append (e : Editor) (first second : List String) :
    e.pressAll (first ++ second) = (e.pressAll first).pressAll second := by
  rw [pressAll, List.map_append, performAll, List.foldl_append]
  rfl

/-- Whether some run of operations from some line leads to an editor. -/
def IsReachable (e : Editor) : Prop :=
  ∃ text ops, e = (ofText text []).performAll ops

theorem IsReachable.wellFormed (h : e.IsReachable) : e.WellFormed := by
  obtain ⟨text, ops, rfl⟩ := h
  exact (wellFormed_ofText text []).performAll ops

end Editor

end LineCalc
