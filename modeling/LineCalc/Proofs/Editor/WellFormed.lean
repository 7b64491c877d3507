import LineCalc.Editor.Modes
/-!
# LineCalc — the states that an editor is found in

`Editor` is a plain record, and most of its values are no state of an editor. `WellFormed` says
which are: where the cursor may stand in each mode, that there is an anchor in visual mode only and
on a character of the line, and that nothing but `y` waits for a second key, in normal mode only.

Every operation keeps it. Changing the mode asks nothing of the state before
(`wellFormed_toInsert`, `wellFormed_toNormal`); an edit asks for its mode, in which alone a key
makes it, and for no more of the cursor than that it is in its place. One key is put together from
these in `WellFormed.press`, and a run of operations by induction (`WellFormed.performAll`).
-/

namespace LineCalc

namespace Editor

variable {e : Editor}

/-- The states that an editor is found in. -/
structure WellFormed (e : Editor) : Prop where
  cursor_nonneg : 0 ≤ e.cursor
  /-- Between characters, or before the first or behind the last. -/
  cursor_le_of_insert : e.mode = .insert → e.cursor ≤ e.text.length
  /-- On a character, or at zero on an empty line. -/
  cursor_le_of_not_insert : e.mode ≠ .insert → e.cursor ≤ (e.text.length - 1 : Nat)
  anchor_iff : e.anchor.isSome ↔ e.mode = .visual
  anchor_lt : ∀ a, e.anchor = some a → a < e.text.length
  pending_eq : ∀ c, e.pending = some c → c = 'y' ∧ e.mode = .normal

/-! ## One mode at a time -/

theorem wellFormed_of_insert (hm : e.mode = .insert) (hnonneg : 0 ≤ e.cursor)
    (hle : e.cursor ≤ e.text.length) (ha : e.anchor = none) (hp : e.pending = none) :
    e.WellFormed where
  cursor_nonneg := hnonneg
  cursor_le_of_insert _ := hle
  cursor_le_of_not_insert h := absurd hm h
  anchor_iff := by simp [ha, hm]
  anchor_lt a h := by simp [ha] at h
  pending_eq c h := by simp [hp] at h

theorem wellFormed_of_normal (hm : e.mode = .normal) (hnonneg : 0 ≤ e.cursor)
    (hle : e.cursor ≤ (e.text.length - 1 : Nat)) (ha : e.anchor = none)
    (hp : ∀ c, e.pending = some c → c = 'y') : e.WellFormed where
  cursor_nonneg := hnonneg
  cursor_le_of_insert h := by simp [hm] at h
  cursor_le_of_not_insert _ := hle
  anchor_iff := by simp [ha, hm]
  anchor_lt a h := by simp [ha] at h
  pending_eq c h := ⟨hp c h, hm⟩

theorem wellFormed_of_visual {a : Nat} (hm : e.mode = .visual) (hnonneg : 0 ≤ e.cursor)
    (hle : e.cursor ≤ (e.text.length - 1 : Nat)) (ha : e.anchor = some a)
    (hlt : a < e.text.length) (hp : e.pending = none) : e.WellFormed where
  cursor_nonneg := hnonneg
  cursor_le_of_insert h := by simp [hm] at h
  cursor_le_of_not_insert _ := hle
  anchor_iff := by simp [ha, hm]
  anchor_lt b h := by
    rw [ha] at h
    cases h
    exact hlt
  pending_eq c h := by simp [hp] at h

namespace WellFormed

theorem anchor_eq_none (h : e.WellFormed) (hm : e.mode ≠ .visual) : e.anchor = none := by
  cases ha : e.anchor with
  | none => rfl
  | some a => exact absurd (h.anchor_iff.1 (by simp [ha])) hm

theorem pending_eq_none (h : e.WellFormed) (hm : e.mode ≠ .normal) : e.pending = none := by
  cases hp : e.pending with
  | none => rfl
  | some c => exact absurd (h.pending_eq c hp).2 hm

/-- What is copied makes no difference. -/
theorem setRegister (h : e.WellFormed) (register : List Char) :
    { e with register := register }.WellFormed :=
  ⟨h.cursor_nonneg, h.cursor_le_of_insert, h.cursor_le_of_not_insert, h.anchor_iff, h.anchor_lt,
    h.pending_eq⟩

/-- An operator can be let go of. -/
theorem clearPending (h : e.WellFormed) : { e with pending := none }.WellFormed :=
  ⟨h.cursor_nonneg, h.cursor_le_of_insert, h.cursor_le_of_not_insert, h.anchor_iff, h.anchor_lt,
    fun _ hc => by cases hc⟩

end WellFormed

/-! ## Changes of mode -/

theorem wellFormed_ofText (text register : List Char) : (ofText text register).WellFormed :=
  wellFormed_of_insert rfl (Int.natCast_nonneg _) (Int.le_refl _) rfl rfl

theorem wellFormed_toInsert (e : Editor) : e.toInsert.WellFormed :=
  wellFormed_of_insert rfl (Int.natCast_nonneg _) (Int.ofNat_le.2 (Nat.min_le_right _ _)) rfl rfl

theorem onChar_le (e : Editor) : e.onChar ≤ e.text.length - 1 :=
  Nat.min_le_right _ _

theorem wellFormed_toNormal (e : Editor) : e.toNormal.WellFormed := by
  have hle : e.normalPosition ≤ e.text.length - 1 := by
    unfold normalPosition
    split
    · exact Nat.min_le_right _ _
    · exact e.onChar_le
  exact wellFormed_of_normal rfl (Int.natCast_nonneg _) (Int.ofNat_le.2 hle) rfl
    fun _ h => by cases h

/-- On an empty line there is no visual mode to go to, and normal mode is kept. -/
theorem wellFormed_toVisual (hm : e.mode = .normal) : e.toVisual.WellFormed := by
  unfold toVisual
  split
  · exact wellFormed_of_normal hm (Int.le_refl 0) (Int.natCast_nonneg _) rfl fun _ h => by cases h
  · next hne =>
    have hlt : e.onChar < e.text.length := by
      have := e.onChar_le
      omega
    exact wellFormed_of_visual rfl (Int.natCast_nonneg _) (Int.ofNat_le.2 e.onChar_le) rfl hlt rfl

/-! ## Motions -/

theorem wordStart_le (cs : List Char) (j : Nat) : wordStart cs j ≤ j :=
  Nat.sub_le _ _

theorem previousWord_le (cs : List Char) (i : Nat) : previousWord cs i ≤ i := by
  have := wordStart_le cs (i - 1 - gapRun (cs.take i).reverse)
  unfold previousWord
  omega

/-- **A motion ends on a character of the line**, or at zero on an empty one. -/
theorem target_le (e : Editor) (m : Motion) : e.target m ≤ e.text.length - 1 := by
  have hon := e.onChar_le
  cases m with
  | left => exact Nat.le_trans (Nat.sub_le _ _) hon
  | right => exact Nat.min_le_right _ _
  | lineStart => exact Nat.zero_le _
  | lineEnd => exact Nat.le_refl _
  | wordForward => exact Nat.min_le_right _ _
  | wordBackward => exact Nat.le_trans (previousWord_le _ _) hon

theorem WellFormed.move (h : e.WellFormed) (m : Motion) : (e.move m).WellFormed where
  cursor_nonneg := Int.natCast_nonneg _
  cursor_le_of_insert _ := by
    have := e.target_le m
    simp only [Editor.move]
    omega
  cursor_le_of_not_insert _ := Int.ofNat_le.2 (e.target_le m)
  anchor_iff := h.anchor_iff
  anchor_lt := h.anchor_lt
  pending_eq := h.pending_eq

/-! ## Edits in insert mode -/

namespace WellFormed

theorem enter (h : e.WellFormed) (hm : e.mode = .insert) {cs : List Char} (hcs : cs ≠ []) :
    (e.enter cs).WellFormed := by
  have hlength : 0 < cs.length := List.length_pos_iff.2 hcs
  refine wellFormed_of_insert hm ?_ ?_ (h.anchor_eq_none (by simp [hm]))
    (h.pending_eq_none (by simp [hm]))
  · simp only [Editor.enter]
    omega
  · simp only [Editor.enter, List.length_append, List.length_take, List.length_drop]
    omega

theorem backspace (h : e.WellFormed) (hm : e.mode = .insert) : e.backspace.WellFormed := by
  unfold Editor.backspace
  split
  · exact h
  · next hne =>
    -- the cursor is in its place, so there is a character before it
    have hpos : 0 < e.cursor := by
      have := h.cursor_nonneg
      omega
    have hle := h.cursor_le_of_insert hm
    refine wellFormed_of_insert hm ?_ ?_ (h.anchor_eq_none (by simp [hm]))
      (h.pending_eq_none (by simp [hm]))
    · simp only [position]
      omega
    · simp only [position, List.length_append, List.length_take, List.length_drop]
      omega

theorem stepLeft (h : e.WellFormed) (hm : e.mode = .insert) : e.stepLeft.WellFormed := by
  refine wellFormed_of_insert hm (Int.natCast_nonneg _) ?_ (h.anchor_eq_none (by simp [hm]))
    (h.pending_eq_none (by simp [hm]))
  have := h.cursor_le_of_insert hm
  simp only [Editor.stepLeft, position]
  omega

theorem stepRight (h : e.WellFormed) (hm : e.mode = .insert) : e.stepRight.WellFormed :=
  wellFormed_of_insert hm (Int.natCast_nonneg _) (Int.ofNat_le.2 (Nat.min_le_right _ _))
    (h.anchor_eq_none (by simp [hm])) (h.pending_eq_none (by simp [hm]))

end WellFormed

/-! ## Edits in normal mode -/

/-- Whatever was done to text and cursor, clamping puts the cursor back on the line. -/
theorem wellFormed_clamp (hm : e.mode = .normal) (ha : e.anchor = none)
    (hp : ∀ c, e.pending = some c → c = 'y') : e.clamp.WellFormed := by
  have hclamp : e.clamp = { e with cursor := (e.onChar : Nat) } := by simp only [clamp, hm]
  rw [hclamp]
  exact wellFormed_of_normal hm (Int.natCast_nonneg _) (Int.ofNat_le.2 e.onChar_le) ha hp

namespace WellFormed

theorem deleteChar (h : e.WellFormed) (hm : e.mode = .normal) : e.deleteChar.WellFormed := by
  unfold Editor.deleteChar
  split
  · exact h
  · exact wellFormed_clamp hm (h.anchor_eq_none (by simp [hm])) fun c hc => (h.pending_eq c hc).1

theorem pasteAt (h : e.WellFormed) (hm : e.mode = .normal) (i : Nat) : (e.pasteAt i).WellFormed :=
  wellFormed_clamp hm (h.anchor_eq_none (by simp [hm])) fun c hc => (h.pending_eq c hc).1

theorem pasteAfter (h : e.WellFormed) (hm : e.mode = .normal) : e.pasteAfter.WellFormed := by
  unfold Editor.pasteAfter
  split
  · exact h
  · exact h.pasteAt hm _

theorem pasteBefore (h : e.WellFormed) (hm : e.mode = .normal) : e.pasteBefore.WellFormed := by
  unfold Editor.pasteBefore
  split
  · exact h
  · exact h.pasteAt hm _

theorem setPending (h : e.WellFormed) (hm : e.mode = .normal) :
    { e with pending := some 'y' }.WellFormed :=
  wellFormed_of_normal hm h.cursor_nonneg (h.cursor_le_of_not_insert (by simp [hm]))
    (h.anchor_eq_none (by simp [hm])) fun _ hc => (Option.some.inj hc).symm

theorem yankMotion (h : e.WellFormed) (m : Motion) : (e.yankMotion m).WellFormed := by
  unfold Editor.yankMotion
  split <;> exact h.setRegister _

/-! ## Keys -/

theorem pressMotion (h : e.WellFormed) (key : Key) : (e.pressMotion key).1.WellFormed := by
  unfold Editor.pressMotion
  split
  · exact h.move _
  · exact h

theorem pressInsert (h : e.WellFormed) (hm : e.mode = .insert) (key : Key) :
    (e.pressInsert key).1.WellFormed := by
  cases key with
  | escape => exact wellFormed_toNormal e
  | backspace => exact h.backspace hm
  | left => exact h.stepLeft hm
  | right => exact h.stepRight hm
  | char c =>
    simp only [Editor.pressInsert]
    split
    · exact h.enter hm (List.cons_ne_nil c [])
    · exact h
  | enter | up | down | tab | backTab | unnamed => exact h

theorem pressPending (h : e.WellFormed) (operator : Char) (key : Key) :
    (e.pressPending operator key).1.WellFormed := by
  have hrest := h.clearPending
  simp only [Editor.pressPending]
  split
  · exact hrest
  · split
    · split
      · exact hrest
      · exact hrest.setRegister _
    · split
      · exact hrest
      · split <;> exact hrest.yankMotion _

theorem pressFirst (h : e.WellFormed) (hm : e.mode = .normal) (key : Key) :
    (e.pressFirst key).1.WellFormed := by
  unfold Editor.pressFirst
  split
  -- commands for the owner leave the editor as it is
  case h_1 | h_2 | h_3 | h_4 => exact h
  case h_5 | h_6 | h_7 | h_8 => exact wellFormed_toInsert _
  case h_9 => exact wellFormed_toVisual hm
  case h_10 => exact h.deleteChar hm
  case h_11 => exact h.pasteAfter hm
  case h_12 => exact h.pasteBefore hm
  case h_13 => exact h.setPending hm
  case h_14 => exact h.pressMotion key

theorem pressNormal (h : e.WellFormed) (hm : e.mode = .normal) (key : Key) :
    (e.pressNormal key).1.WellFormed := by
  unfold Editor.pressNormal
  split
  · exact h.pressPending _ key
  · exact h.pressFirst hm key

theorem pressVisual (h : e.WellFormed) (key : Key) : (e.pressVisual key).1.WellFormed := by
  unfold Editor.pressVisual
  split
  case h_3 => exact h
  case h_7 => exact h.pressMotion key
  -- every other key leaves visual mode
  all_goals exact wellFormed_toNormal _

/-- **A key keeps the editor in a state of its own**, in whichever mode it is pressed. -/
theorem press (h : e.WellFormed) (key : Key) : (e.press key).1.WellFormed := by
  unfold Editor.press
  cases hm : e.mode with
  | insert => exact h.pressInsert hm key
  | normal => exact h.pressNormal hm key
  | visual => exact h.pressVisual key

end WellFormed

/-! ## Whole runs -/

/-- What an owner can do with an editor. -/
inductive Operation where
  /-- A key, by its name. -/
  | press (name : String)
  | setText (text : List Char)
  | clear
  | move (m : Motion)

/-- The editor after an operation. -/
def perform (e : Editor) : Operation → Editor
  | .press name => (e.press (Key.ofName name)).1
  | .setText text => e.setText text
  | .clear => e.clear
  | .move m => e.move m

/-- The editor after operations, one after the other. -/
def performAll (e : Editor) (ops : List Operation) : Editor :=
  ops.foldl perform e

theorem WellFormed.perform (h : e.WellFormed) (op : Operation) : (e.perform op).WellFormed := by
  cases op with
  | press name => exact h.press (Key.ofName name)
  | setText text => exact wellFormed_ofText text e.register
  | clear => exact wellFormed_ofText [] e.register
  | move m => exact h.move m

theorem WellFormed.performAll (h : e.WellFormed) (ops : List Operation) :
    (e.performAll ops).WellFormed := by
  induction ops generalizing e with
  | nil => exact h
  | cons op ops ih => exact ih (h.perform op)

/-- **The representation of the editor holds at every moment.** Whatever line it starts with and
whatever is done with it, in any order: the cursor is in its place for the mode, an anchor is there
exactly in visual mode and lies on a character, and only `y` waits for a second key, in normal mode
only. -/
theorem wellFormed_performAll_ofText (text : List Char) (ops : List Operation) :
    ((ofText text []).performAll ops).WellFormed :=
  (wellFormed_ofText text []).performAll ops

/-- A selection of the whole line is cut, and then there is nothing left to select. -/
example : empty.performAll (["1", "2", "<esc>", "v", "h", "d", "v"].map .press)
    = ⟨[], 0, .normal, [], none, none⟩ := by
  decide

end Editor

end LineCalc
