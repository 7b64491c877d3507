import LineCalc.Proofs.Editor.Words
import Mathlib.Data.List.Induction
/-!
# LineCalc — the register

What was copied last stays in the register until a key announces another copy. A copy is made in
three ways: of the selection, of the line, and of what a motion covers. Each leaves what it
announces (`Copies`): the characters from the first to the last position of a line that is as it
was. No other key touches the register (`Leaves`), but for one: an operator with a motion on an empty
line covers nothing, and empties it. So whatever the register holds was announced at some moment of
the run (`isAnnounced_performAll`).
-/

namespace LineCalc

namespace Editor

variable {e : Editor} {key : Key} {m : Motion} {line : List Char} {first last stop : Nat}

/-- An editor after a copy of the characters of a line from the first to the last position. -/
structure Copies (line : List Char) (first last : Nat) (e : Editor) : Prop where
  ordered : first ≤ last
  last_lt : last < line.length
  text_eq : e.text = line
  register_eq : e.register = (line.take (last + 1)).drop first
  mode_eq : e.mode = .normal
  pending_eq : e.pending = none

/-- Whether a step announces a copy and makes it. -/
def Announces (line : List Char) (step : Editor × Command) : Prop :=
  ∃ first last, step.2 = .yanked first last ∧ step.1.Copies line first last

/-- Whether a step announces no copy and leaves a register. -/
def Leaves (register : List Char) (step : Editor × Command) : Prop :=
  (∀ first last, step.2 ≠ .yanked first last) ∧ step.1.register = register

/-- Whether a key completes an operator on an empty line. -/
def IsEmptyCopy (e : Editor) (key : Key) : Prop :=
  e.text = [] ∧ e.pending = some 'y' ∧ (motionOfKey? key).isSome

instance : Decidable (e.IsEmptyCopy key) :=
  inferInstanceAs (Decidable (_ ∧ _))

/-! ## Keys that copy nothing -/

theorem register_clamp (e : Editor) : e.clamp.register = e.register := by
  unfold clamp
  split <;> rfl

theorem register_toVisual (e : Editor) : e.toVisual.register = e.register := by
  unfold toVisual
  split <;> rfl

theorem register_backspace (e : Editor) : e.backspace.register = e.register := by
  unfold backspace
  split <;> rfl

theorem register_deleteChar (e : Editor) : e.deleteChar.register = e.register := by
  unfold deleteChar
  split
  · rfl
  · exact register_clamp _

theorem register_deleteSelection (e : Editor) : e.deleteSelection.register = e.register := by
  unfold deleteSelection
  split <;> rfl

theorem register_pasteAfter (e : Editor) : e.pasteAfter.register = e.register := by
  unfold pasteAfter
  split
  · rfl
  · exact register_clamp _

theorem register_pasteBefore (e : Editor) : e.pasteBefore.register = e.register := by
  unfold pasteBefore
  split
  · rfl
  · exact register_clamp _

theorem leaves_none {register : List Char} (h : e.register = register) :
    Leaves register (e, .none) :=
  ⟨fun _ _ => Command.noConfusion, h⟩

theorem leaves_pressMotion (e : Editor) (key : Key) : Leaves e.register (e.pressMotion key) := by
  unfold pressMotion
  split <;> exact leaves_none rfl

theorem leaves_pressInsert (e : Editor) (key : Key) : Leaves e.register (e.pressInsert key) := by
  cases key with
  | enter => exact ⟨fun _ _ => Command.noConfusion, rfl⟩
  | backspace => exact leaves_none e.register_backspace
  | char c =>
    refine leaves_none ?_
    split <;> rfl
  | escape | left | right | up | down | tab | backTab | unnamed => exact leaves_none rfl

theorem leaves_pressFirst (e : Editor) (key : Key) : Leaves e.register (e.pressFirst key) := by
  unfold pressFirst
  split
  -- commands for the owner leave the editor as it is
  case h_1 | h_2 | h_3 | h_4 => exact ⟨fun _ _ => Command.noConfusion, rfl⟩
  case h_5 | h_6 | h_7 | h_8 | h_13 => exact leaves_none rfl
  case h_9 => exact leaves_none e.register_toVisual
  case h_10 => exact leaves_none e.register_deleteChar
  case h_11 => exact leaves_none e.register_pasteAfter
  case h_12 => exact leaves_none e.register_pasteBefore
  case h_14 => exact e.leaves_pressMotion key

/-! ## Copies -/

/-- The selection is on the line. -/
theorem selection_bounds (h : e.selection = some (first, last)) :
    first ≤ last ∧ last < e.text.length := by
  have hon := e.onChar_le
  unfold selection at h
  split at h
  · cases h
  · next anchor _ =>
    have hanchor : min anchor (e.text.length - 1) ≤ e.text.length - 1 := Nat.min_le_right _ _
    split at h
    · cases h
    · dsimp only at h
      split at h <;> cases h <;> omega

theorem copies_yankSelection (h : e.selection = some (first, last)) :
    e.yankSelection.toNormal.Copies e.text first last := by
  obtain ⟨hordered, hlt⟩ := selection_bounds h
  have hyank : e.yankSelection = { e with register := (e.text.take (last + 1)).drop first } := by
    rw [yankSelection, h]
  rw [hyank]
  exact ⟨hordered, hlt, rfl, rfl, rfl, rfl⟩

theorem copies_yankLine (hm : e.mode = .normal) (hp : e.pending = none) (hne : e.text.length ≠ 0) :
    e.yankLine.Copies e.text 0 (e.text.length - 1) where
  ordered := Nat.zero_le _
  last_lt := Nat.sub_one_lt hne
  text_eq := rfl
  register_eq := by
    rw [Nat.sub_add_cancel (Nat.pos_of_ne_zero hne), List.take_length, List.drop_zero]
    rfl
  mode_eq := hm
  pending_eq := hp

theorem copies_yankMotion (hm : e.mode = .normal) (hp : e.pending = none)
    (h : e.span m = some (first, stop)) : (e.yankMotion m).Copies e.text first (stop - 1) := by
  obtain ⟨hfirst, hstop, hle⟩ := span_bounds h
  have hyank : e.yankMotion m = { e with register := (e.text.take stop).drop first } := by
    rw [yankMotion, h]
  have hlast : stop - 1 + 1 = stop := by omega
  rw [hyank]
  exact ⟨by omega, by omega, rfl, by rw [hlast], hm, hp⟩

/-- A motion covers something wherever there is something. -/
theorem text_eq_nil_of_span (h : e.span m = none) : e.text = [] := by
  unfold span at h
  split at h
  · next hempty => exact List.length_eq_zero_iff.1 hempty
  · cases m <;> cases h

/-! ## Keys -/

theorem register_pressVisual (e : Editor) (key : Key) :
    Announces e.text (e.pressVisual key) ∨ Leaves e.register (e.pressVisual key) := by
  unfold pressVisual
  split
  case h_1 | h_2 => exact .inr (leaves_none rfl)
  case h_3 => exact .inr ⟨fun _ _ => Command.noConfusion, rfl⟩
  case h_4 =>
    cases hselection : e.selection with
    | none => exact .inr (leaves_none (by rw [yankSelection, hselection]; rfl))
    | some range => exact .inl ⟨range.1, range.2, rfl, copies_yankSelection hselection⟩
  case h_5 | h_6 => exact .inr (leaves_none e.register_deleteSelection)
  case h_7 => exact .inr (e.leaves_pressMotion key)

/-- The second key of an operator copies the line or what a motion covers, and makes an empty copy
of an empty line. -/
theorem register_pressPending (hm : e.mode = .normal) (hp : e.pending = some 'y') (key : Key) :
    Announces e.text (e.pressPending 'y' key) ∨
      Leaves (if e.IsEmptyCopy key then [] else e.register) (e.pressPending 'y' key) := by
  unfold pressPending
  simp only [ne_eq, not_true_eq_false, if_false]
  by_cases hline : key = .char 'y'
  · have hkey : ¬ e.IsEmptyCopy key := by
      rintro ⟨-, -, hmotion⟩
      rw [hline] at hmotion
      cases hmotion
    rw [if_pos hline, if_neg hkey]
    split
    · exact .inr (leaves_none rfl)
    · next hne =>
      exact .inl ⟨_, _, rfl, copies_yankLine (e := { e with pending := none }) hm rfl hne⟩
  · rw [if_neg hline]
    cases hmotion : motionOfKey? key with
    | none =>
      have hkey : ¬ e.IsEmptyCopy key := by
        rintro ⟨-, -, hsome⟩
        rw [hmotion] at hsome
        cases hsome
      rw [if_neg hkey]
      exact .inr (leaves_none rfl)
    | some m =>
      dsimp only
      split
      · next hspan =>
        have hkey : e.IsEmptyCopy key := ⟨text_eq_nil_of_span hspan, hp, by rw [hmotion]; rfl⟩
        rw [if_pos hkey, yankMotion, hspan]
        exact .inr (leaves_none rfl)
      · next hspan =>
        exact .inl ⟨_, _, rfl, copies_yankMotion (e := { e with pending := none }) hm rfl hspan⟩

/-- **What a key does to the register.** It announces a copy and makes it, or it leaves the register
as it was; only an operator that finds the line empty empties it. -/
theorem WellFormed.announces_or_leaves (h : e.WellFormed) (key : Key) :
    Announces e.text (e.press key) ∨
      Leaves (if e.IsEmptyCopy key then [] else e.register) (e.press key) := by
  have hkey : e.pending = none → ¬ e.IsEmptyCopy key := by
    rintro hp ⟨-, hpending, -⟩
    rw [hp] at hpending
    cases hpending
  unfold Editor.press
  cases hm : e.mode with
  | insert =>
    rw [if_neg (hkey (h.pending_eq_none (by simp [hm])))]
    exact .inr (e.leaves_pressInsert key)
  | normal =>
    dsimp only [Editor.pressNormal]
    cases hp : e.pending with
    | none =>
      rw [if_neg (hkey hp)]
      exact .inr (e.leaves_pressFirst key)
    | some operator =>
      obtain rfl := (h.pending_eq operator hp).1
      exact register_pressPending hm hp key
  | visual =>
    rw [if_neg (hkey (h.pending_eq_none (by simp [hm])))]
    exact e.register_pressVisual key

/-! ## Whole runs -/

theorem performAll_append_singleton (e : Editor) (ops : List Operation) (op : Operation) :
    e.performAll (ops ++ [op]) = (e.performAll ops).perform op := by
  rw [performAll, List.foldl_append]
  rfl

/-- Where the register of a run comes from: it is empty, or what it holds was announced by a key, as
a part of the line that there was then. -/
def IsAnnounced (text : List Char) (ops : List Operation) (register : List Char) : Prop :=
  register = [] ∨ ∃ before name after first last, ops = before ++ .press name :: after ∧
    (((ofText text []).performAll before).press (Key.ofName name)).2 = .yanked first last ∧
    register = (((ofText text []).performAll before).text.take (last + 1)).drop first

theorem IsAnnounced.append_singleton {text register : List Char} {ops : List Operation}
    (h : IsAnnounced text ops register) (op : Operation) :
    IsAnnounced text (ops ++ [op]) register := by
  refine h.imp_right ?_
  rintro ⟨before, name, after, first, last, rfl, hyanked, hregister⟩
  exact ⟨before, name, after ++ [op], first, last, List.append_assoc _ _ _, hyanked, hregister⟩

/-- **Whatever the register holds was announced.** -/
theorem isAnnounced_performAll (text : List Char) (ops : List Operation) :
    IsAnnounced text ops ((ofText text []).performAll ops).register := by
  induction ops using List.reverseRecOn with
  | nil => exact .inl rfl
  | append_singleton ops op ih =>
    rw [performAll_append_singleton]
    cases op with
    | setText line => exact ih.append_singleton _
    | clear => exact ih.append_singleton _
    | move m => exact ih.append_singleton _
    | press name =>
      have hwf := (wellFormed_ofText text []).performAll ops
      rcases hwf.announces_or_leaves (Key.ofName name) with
        ⟨first, last, hyanked, hcopies⟩ | ⟨-, hregister⟩
      · exact .inr ⟨ops, name, [], first, last, rfl, hyanked, hcopies.register_eq⟩
      · rw [perform, hregister]
        split
        · exact .inl rfl
        · exact ih.append_singleton _

/-- **The register changes only as announced.** At any moment of a run a key that announces a copy
makes it: the positions are in order and on the line, the line is as it was, the register holds the
characters from the first to the last, and normal mode waits for a first key. A key that announces
nothing leaves the register, but for an operator with a motion on an empty line, which empties it.
So what the register holds was announced by some key before. -/
theorem register_press (text : List Char) (ops : List Operation) (name : String) :
    let e := (ofText text []).performAll ops
    let step := e.press (Key.ofName name)
    (∀ first last, step.2 = .yanked first last → step.1.Copies e.text first last) ∧
      ((∀ first last, step.2 ≠ .yanked first last) →
        step.1.register = if e.IsEmptyCopy (Key.ofName name) then [] else e.register) ∧
      IsAnnounced text ops e.register := by
  have hwf := (wellFormed_ofText text []).performAll ops
  refine ⟨fun first last hyanked => ?_, fun hsilent => ?_, isAnnounced_performAll text ops⟩
  · rcases hwf.announces_or_leaves (Key.ofName name) with ⟨i, j, hij, hcopies⟩ | ⟨hsilent, -⟩
    · cases hyanked.symm.trans hij
      exact hcopies
    · exact absurd hyanked (hsilent first last)
  · rcases hwf.announces_or_leaves (Key.ofName name) with ⟨i, j, hij, -⟩ | ⟨-, hregister⟩
    · exact absurd hij (hsilent i j)
    · exact hregister

/-- A word is copied; where the line is cut down to nothing first, there is nothing to copy. -/
example : (empty.performAll (["a", "b", "<esc>", "y", "b"].map .press)).register = ['a', 'b'] ∧
    (empty.performAll (["a", "b", "<esc>", "y", "b", "x", "x", "y", "w"].map .press)).register
      = [] := by
  decide

end Editor

end LineCalc
