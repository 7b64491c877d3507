import LineCalc.Proofs.Editor.Visual
/-!
# LineCalc — cutting and putting back

A part of the line that is copied, cut out and pasted is where it was before. Pasting at the first
position of the part undoes the cut (`Stands.pasteAt_cutOut`); what there is to show is that the
cursor is left where one of the two keys pastes there (`Stands.press_put_cutOut`): on the character
behind the part, or before the part if it ended the line, or on nothing if the part was the line.
-/

namespace LineCalc

namespace Editor

variable {e : Editor} {names : List String} {a i first last : Nat}

/-! ## One part of the line -/

/-- What is before a part, the part, and what is behind it make the whole. -/
theorem take_append_slice_append_drop (cs : List Char) (hle : first ≤ last) :
    cs.take first ++ (cs.take (last + 1)).drop first ++ cs.drop (last + 1) = cs := by
  have hfront : cs.take first = (cs.take (last + 1)).take first := by
    rw [List.take_take, Nat.min_eq_left (by omega)]
  rw [hfront, List.take_append_drop, List.take_append_drop]

theorem length_slice {cs : List Char} (first : Nat) (hlt : last < cs.length) :
    ((cs.take (last + 1)).drop first).length = last + 1 - first := by
  rw [List.length_drop, List.length_take_of_le hlt]

namespace Stands

/-- A part that was cut out is back where it was if it is pasted there. -/
theorem pasteAt_cutOut (h : e.Stands) (hle : first ≤ last) (hlt : last < e.text.length)
    (hregister : e.register = (e.text.take (last + 1)).drop first) :
    (e.cutOut first last).pasteAt first = e.moveTo last := by
  have hfront : (e.text.take first).length = first := List.length_take_of_le (by omega)
  have hwhole := take_append_slice_append_drop e.text hle
  have hlength := length_slice first hlt
  have hmode := h.mode_eq
  rw [← hregister] at hwhole hlength
  simp only [pasteAt, cutOut, List.take_left' hfront, List.drop_left' hfront, hwhole, clamp, hmode,
    onChar, position, Editor.moveTo]
  have hcursor : min ((first : Int) + e.register.length - 1).toNat (e.text.length - 1) = last := by
    omega
  rw [hcursor]

/-- **A part that was copied and cut out can be put back.** That is done before the cursor if there
is a character behind the part for it to be on, and behind it if not. -/
theorem press_put_cutOut (h : e.Stands) (hle : first ≤ last) (hlt : last < e.text.length)
    (hregister : e.register = (e.text.take (last + 1)).drop first) :
    (e.cutOut first last).press (.char (if last + 1 < e.text.length then 'P' else 'p'))
      = (e.moveTo last, .none) := by
  have hpasted := h.pasteAt_cutOut hle hlt hregister
  have hlength : (e.cutOut first last).register.length = last + 1 - first :=
    (congrArg List.length hregister).trans (length_slice first hlt)
  have hfilled : (e.cutOut first last).register ≠ [] := List.ne_nil_of_length_pos (by omega)
  have hrest : (e.cutOut first last).text.length = first + (e.text.length - (last + 1)) := by
    simp only [cutOut, List.length_append, List.length_take, List.length_drop]
    omega
  have hposition : (e.cutOut first last).position
      = min first ((e.cutOut first last).text.length - 1) := rfl
  rw [press_eq_pressFirst (e := e.cutOut first last) h.mode_eq h.pending_eq]
  by_cases hbehind : last + 1 < e.text.length
  · have hbefore : (e.cutOut first last).pasteBefore = e.moveTo last := by
      have hat : min (e.cutOut first last).position (e.cutOut first last).text.length = first := by
        omega
      rw [pasteBefore, if_neg hfilled, hat, hpasted]
    rw [if_pos hbehind, pressFirst, hbefore]
  -- the part was the end of the line: the cursor is before it, or nothing is left
  · have hafter : (e.cutOut first last).pasteAfter = e.moveTo last := by
      have hat : min ((e.cutOut first last).position + 1) (e.cutOut first last).text.length
          = first := by
        omega
      rw [pasteAfter, if_neg hfilled, hat, hpasted]
    rw [if_neg hbehind, pressFirst, hafter]

/-- What is in the register makes no difference. -/
theorem copyOut (h : e.Stands) (first last : Nat) : (e.copyOut first last).Stands :=
  ⟨h.mode_eq, h.anchor_eq, h.pending_eq, h.cursor_eq, h.position_lt⟩

/-- Motions before `v` choose where a selection starts, and motions behind it where it ends. -/
theorem exists_pressAll_eq_select (h : e.Stands) {moves again : List String}
    (hnames : ∀ name ∈ moves ++ again, name ∈ motionNames) :
    ∃ a i, a < e.text.length ∧ i < e.text.length ∧
      e.pressAll (moves ++ "v" :: again) = e.select a i := by
  obtain ⟨hmoves, hagain⟩ := List.forall_mem_append.1 hnames
  obtain ⟨a, ha, hstart⟩ := h.exists_pressAll_eq hmoves
  obtain ⟨i, hi, hend⟩ := (h.moveTo ha).exists_pressAll_eq hagain
  refine ⟨a, i, ha, hi, ?_⟩
  rw [pressAll_append, hstart, (h.moveTo ha).pressAll_v hagain, hend]
  rfl

/-- One step to the right, if the line goes on. -/
theorem move_right (h : e.Stands) (hi : i + 1 < e.text.length) :
    (e.moveTo i).move .right = e.moveTo (i + 1) := by
  have hon := (h.moveTo (i := i) (by omega)).onChar_eq
  have htarget : (e.moveTo i).target .right = i + 1 := by
    have hright : (e.moveTo i).target .right
        = min ((e.moveTo i).onChar + 1) (e.text.length - 1) := rfl
    rw [hright, hon]
    exact Nat.min_eq_left (Nat.le_pred_of_lt hi)
  rw [Editor.move, htarget]
  rfl

/-- And so many steps, if the line is as long. -/
theorem pressAll_replicate_l (h : e.Stands) {n : Nat} (hlt : i + n < e.text.length) :
    (e.moveTo i).pressAll (List.replicate n "l") = e.moveTo (i + n) := by
  induction n generalizing i with
  | zero => rfl
  | succ n ih =>
    have hstep : (e.moveTo i).press (Key.ofName "l") = ((e.moveTo i).move .right, .none) :=
      press_motion (m := .right) (by simp [Editor.moveTo, h.mode_eq]) h.pending_eq rfl
    have hcount : i + 1 + n = i + (n + 1) := by omega
    rw [List.replicate_succ, pressAll_cons, hstep, h.move_right (by omega), ih (by omega), hcount]

/-- **Every part of the line can be selected.** -/
theorem exists_selection_eq (h : e.Stands) (hle : first ≤ last) (hlt : last < e.text.length) :
    ∃ moves again, (∀ name ∈ moves ++ again, name ∈ motionNames) ∧
      (e.pressAll (moves ++ "v" :: again)).selection = some (first, last) := by
  have hl : ∀ n, ∀ name ∈ List.replicate n "l", name ∈ motionNames := by
    intro n name hname
    rw [List.eq_of_mem_replicate hname]
    decide
  have hfront : e.pressAll ("0" :: List.replicate first "l") = e.moveTo first := by
    have hstart : e.press (Key.ofName "0") = (e.moveTo 0, .none) :=
      press_motion (m := .lineStart) (by simp [h.mode_eq]) h.pending_eq rfl
    rw [pressAll_cons, hstart, h.pressAll_replicate_l (by omega), Nat.zero_add]
  have hfirst := h.moveTo (i := first) (by omega)
  have hend : (e.moveTo first).pressAll (List.replicate (last - first) "l") = e.moveTo last := by
    rw [h.pressAll_replicate_l (by omega), Nat.add_sub_cancel' hle]
  refine ⟨"0" :: List.replicate first "l", List.replicate (last - first) "l", ?_, ?_⟩
  · exact List.forall_mem_append.2
      ⟨List.forall_mem_cons.2 ⟨by decide, hl first⟩, hl (last - first)⟩
  · have hselect : e.pressAll ("0" :: List.replicate first "l"
        ++ "v" :: List.replicate (last - first) "l") = e.select first last := by
      rw [pressAll_append, hfront, hfirst.pressAll_v (hl _), hend]
      rfl
    rw [hselect, selection_select (Nat.lt_of_le_of_lt hle hlt) hlt, Nat.min_eq_left hle,
      Nat.max_eq_right hle]

/-- **A copied part that is selected, cut and put back is where it was.** -/
theorem pressAll_d_put (h : e.Stands)
    (hregister : e.register = (e.text.take (last + 1)).drop first) {moves again : List String}
    (hnames : ∀ name ∈ moves ++ again, name ∈ motionNames)
    (hselection : (e.pressAll (moves ++ "v" :: again)).selection = some (first, last)) :
    (e.pressAll (moves ++ "v" :: again)).pressAll
        ["d", if last + 1 < e.text.length then "P" else "p"]
      = e.moveTo last := by
  obtain ⟨a, i, ha, hi, hselect⟩ := h.exists_pressAll_eq_select hnames
  rw [hselect, selection_select ha hi] at hselection
  cases hselection
  have hkey : Key.ofName (if max a i + 1 < e.text.length then "P" else "p")
      = .char (if max a i + 1 < e.text.length then 'P' else 'p') := by
    split <;> rfl
  have hcut : (e.select a i).press (Key.ofName "d") = (e.cutOut (min a i) (max a i), .none) :=
    h.press_d_select ha hi
  rw [hselect, pressAll_cons, hcut, pressAll_cons, hkey,
    h.press_put_cutOut (by omega) (by omega) hregister]
  rfl

end Stands

/-- **What is cut and put back leaves the line as it was.** A part of the line that was selected and
copied can be selected again. However motions before and behind `v` do so, to cut it and to put it
back makes the same line, in normal mode, with the cursor on the end of the part. It is put before
the cursor if there were characters behind the part, and behind the cursor if not. -/
theorem pressAll_putBack (h : e.IsReachable) (hmode : e.mode = .normal)
    (hpending : e.pending = none) (htext : e.text ≠ [])
    (hnames : ∀ name ∈ names, name ∈ motionNames) :
    ∃ first last, (e.pressAll ("v" :: names)).selection = some (first, last) ∧
      let copied := e.pressAll ("v" :: names ++ ["y"])
      (∃ moves again, (∀ name ∈ moves ++ again, name ∈ motionNames) ∧
        (copied.pressAll (moves ++ "v" :: again)).selection = some (first, last)) ∧
      ∀ moves again, (∀ name ∈ moves ++ again, name ∈ motionNames) →
        (copied.pressAll (moves ++ "v" :: again)).selection = some (first, last) →
        (copied.pressAll (moves ++ "v" :: again)).pressAll
            ["d", if last + 1 < e.text.length then "P" else "p"]
          = { e with
              cursor := (last : Nat)
              register := (e.text.take (last + 1)).drop first } := by
  have hstands := h.wellFormed.stands hmode hpending htext
  have hmotions : ∀ name ∈ [] ++ names, name ∈ motionNames := hnames
  obtain ⟨a, i, ha, hi, hselected⟩ := hstands.exists_pressAll_eq_select hmotions
  rw [List.nil_append] at hselected
  -- the copy is in the register, and the cursor where the motions led to
  have hcopied : e.pressAll ("v" :: names ++ ["y"])
      = (e.copyOut (min a i) (max a i)).moveTo i := by
    have hyank : (e.select a i).press (Key.ofName "y")
        = ((e.copyOut (min a i) (max a i)).moveTo i, .yanked (min a i) (max a i)) :=
      hstands.press_y_select ha hi
    rw [pressAll_append, hselected, pressAll_cons, hyank, pressAll_nil]
  have hagain := (hstands.copyOut (min a i) (max a i)).moveTo hi
  refine ⟨min a i, max a i, ?_, ?_, fun moves again hnames hselection => ?_⟩
  · rw [hselected]
    exact selection_select ha hi
  · rw [hcopied]
    exact hagain.exists_selection_eq (by omega) (show max a i < e.text.length by omega)
  · rw [hcopied] at hselection ⊢
    exact hagain.pressAll_d_put rfl hnames hselection

/-- In the sum the last number is cut and put back behind the cursor, since it ends the line. -/
theorem pressAll_putBack_resting :
    resting.IsReachable ∧ resting.mode = .normal ∧ resting.pending = none ∧ resting.text ≠ [] ∧
      (∀ name ∈ ["$"], name ∈ motionNames) ∧
      (resting.pressAll ["v", "$"]).selection = some (3, 4) ∧
      (∀ name ∈ [] ++ ["h"], name ∈ motionNames) ∧
      (resting.pressAll ["v", "$", "y", "v", "h"]).selection = some (3, 4) ∧
      resting.pressAll ["v", "$", "y", "v", "h", "d", "p"]
        = ⟨"12+34".toList, 4, .normal, "34".toList, none, none⟩ := by
  obtain ⟨hreachable, hmode, hpending, htext⟩ := isReachable_resting
  have hnames : ∀ name ∈ ["$"], name ∈ motionNames := by decide
  have hselected : (resting.pressAll ["v", "$"]).selection = some (3, 4) := by decide
  have hmotions : ∀ name ∈ [] ++ ["h"], name ∈ motionNames := by decide
  have hagain : (resting.pressAll ["v", "$", "y", "v", "h"]).selection = some (3, 4) := by decide
  obtain ⟨first, last, hselection, -, hback⟩ :=
    pressAll_putBack hreachable hmode hpending htext hnames
  cases hselected.symm.trans hselection
  exact ⟨hreachable, hmode, hpending, htext, hnames, hselected, hmotions, hagain,
    (hback [] ["h"] hmotions hagain).trans (by decide)⟩

end Editor

end LineCalc
