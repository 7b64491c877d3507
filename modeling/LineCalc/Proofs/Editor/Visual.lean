import LineCalc.Proofs.Editor.Keys
/-!
# LineCalc — what visual mode selects

Motions go the same way in normal and in visual mode, since where they aim at is read off the line
and the cursor alone. So the keys that move, pressed behind `v`, leave a selection between the place
where `v` was pressed and the place that they lead to (`Stands.pressAll_v`). What is then copied or
cut is that part of the line (`Stands.press_y_select`, `Stands.press_d_select`). An operator with a
motion copies from the cursor to where the motion leads, which is the same part but for words, whose
spans end at their edges (`span_eq_of_ne_word`).
-/

namespace LineCalc

namespace Editor

variable {e : Editor} {key : Key} {m : Motion} {name : String} {names : List String}
variable {a i first last : Nat}

/-! ## Keys that move -/

/-- The names of the keys that move. -/
def motionNames : List String :=
  ["h", "l", "0", "$", "w", "b", "<left>", "<right>"]

theorem exists_motion (h : name ∈ motionNames) :
    ∃ m, motionOfKey? (Key.ofName name) = some m := by
  have hall : ∀ name ∈ motionNames, (motionOfKey? (Key.ofName name)).isSome := by decide
  exact Option.isSome_iff_exists.1 (hall name h)

/-- All keys that move but for two move by characters or to the ends of the line. -/
theorem exists_motion_ne_word (h : name ∈ motionNames) (hw : name ≠ "w") (hb : name ≠ "b") :
    ∃ m, motionOfKey? (Key.ofName name) = some m ∧ m ≠ .wordForward ∧ m ≠ .wordBackward := by
  have hall : ∀ name ∈ motionNames, name ≠ "w" → name ≠ "b" →
      ∃ m ∈ [Motion.left, .right, .lineStart, .lineEnd],
        motionOfKey? (Key.ofName name) = some m := by decide
  obtain ⟨m, hmem, hm⟩ := hall name h hw hb
  refine ⟨m, hm, ?_, ?_⟩
  all_goals
    rintro rfl
    exact absurd hmem (by decide)

/-- In normal mode a key is a command, as long as no operator waits for it. -/
theorem press_eq_pressFirst (hmode : e.mode = .normal) (hpending : e.pending = none) (key : Key) :
    e.press key = e.pressFirst key := by
  simp only [press, hmode, pressNormal, hpending]

/-- Where an operator waits, a key completes it. -/
theorem press_eq_pressPending {operator : Char} (hmode : e.mode = .normal)
    (hpending : e.pending = some operator) (key : Key) :
    e.press key = e.pressPending operator key := by
  simp only [press, hmode, pressNormal, hpending]

/-- **A key that moves does so in normal and in visual mode.** -/
theorem press_motion (hmode : e.mode ≠ .insert) (hpending : e.pending = none)
    (hkey : motionOfKey? key = some m) : e.press key = (e.move m, .none) := by
  have hmoves : e.pressMotion key = (e.move m, .none) := by rw [pressMotion, hkey]
  cases hm : e.mode with
  | insert => exact absurd hm hmode
  | normal =>
    rw [press_eq_pressFirst hm hpending]
    unfold pressFirst
    split
    case h_14 => exact hmoves
    all_goals cases hkey
  | visual =>
    simp only [press, hm]
    unfold pressVisual
    split
    case h_7 => exact hmoves
    all_goals cases hkey

/-! ## On a character -/

/-- An editor that stands on a character in normal mode, with no operator waiting. -/
structure Stands (e : Editor) : Prop where
  mode_eq : e.mode = .normal
  anchor_eq : e.anchor = none
  pending_eq : e.pending = none
  cursor_eq : e.cursor = e.position
  position_lt : e.position < e.text.length

theorem WellFormed.stands (h : e.WellFormed) (hmode : e.mode = .normal) (hpending : e.pending = none)
    (htext : e.text ≠ []) : e.Stands := by
  have hnonneg := h.cursor_nonneg
  have hle := h.cursor_le_of_not_insert (by simp [hmode])
  have hlength : 0 < e.text.length := List.length_pos_iff.2 htext
  have hcursor : e.cursor = e.position := (Int.toNat_of_nonneg hnonneg).symm
  exact ⟨hmode, h.anchor_eq_none (by simp [hmode]), hpending, hcursor, by omega⟩

/-- The editor with the cursor at a position. -/
def moveTo (e : Editor) (i : Nat) : Editor :=
  { e with cursor := (i : Nat) }

/-- The editor in visual mode, with a selection from `a` to the cursor at `i`. -/
def select (e : Editor) (a i : Nat) : Editor :=
  { e with mode := .visual, cursor := (i : Nat), anchor := some a }

namespace Stands

theorem moveTo (h : e.Stands) (hi : i < e.text.length) : (e.moveTo i).Stands :=
  ⟨h.mode_eq, h.anchor_eq, h.pending_eq, rfl, hi⟩

theorem moveTo_position (h : e.Stands) : e.moveTo e.position = e := by
  rw [Editor.moveTo, ← h.cursor_eq]

theorem onChar_eq (h : e.Stands) : e.onChar = e.position :=
  Nat.min_eq_left (Nat.le_pred_of_lt h.position_lt)

theorem target_lt (h : e.Stands) (m : Motion) : e.target m < e.text.length := by
  have hle := e.target_le m
  have hlt := h.position_lt
  omega

theorem move (h : e.Stands) (m : Motion) : (e.move m).Stands :=
  h.moveTo (h.target_lt m)

/-- Motions lead to a character of the line, and change nothing else. -/
theorem exists_pressAll_eq (h : e.Stands) (hnames : ∀ name ∈ names, name ∈ motionNames) :
    ∃ i, i < e.text.length ∧ e.pressAll names = e.moveTo i := by
  induction names generalizing e with
  | nil => exact ⟨e.position, h.position_lt, h.moveTo_position.symm⟩
  | cons name names ih =>
    obtain ⟨hname, hnames⟩ := List.forall_mem_cons.1 hnames
    obtain ⟨m, hm⟩ := exists_motion hname
    obtain ⟨i, hi, hrest⟩ := ih (h.move m) hnames
    refine ⟨i, hi, ?_⟩
    rw [pressAll_cons, press_motion (by simp [h.mode_eq]) h.pending_eq hm]
    exact hrest

/-- **Motions go the same way in visual mode**, with the anchor where it is. -/
theorem pressAll_select (h : e.Stands) (hnames : ∀ name ∈ names, name ∈ motionNames) (a : Nat) :
    (e.select a e.position).pressAll names = e.select a (e.pressAll names).position := by
  induction names generalizing e with
  | nil => rfl
  | cons name names ih =>
    obtain ⟨hname, hnames⟩ := List.forall_mem_cons.1 hnames
    obtain ⟨m, hm⟩ := exists_motion hname
    have hnormal : e.press (Key.ofName name) = (e.move m, .none) :=
      press_motion (by simp [h.mode_eq]) h.pending_eq hm
    have hvisual : (e.select a e.position).press (Key.ofName name)
        = ((e.select a e.position).move m, .none) :=
      press_motion Mode.noConfusion h.pending_eq hm
    -- where a motion aims at does not hang on the mode
    have hmove : (e.select a e.position).move m = (e.move m).select a (e.move m).position := by
      have hselect : e.select a e.position = { e with mode := .visual, anchor := some a } := by
        rw [select, ← h.cursor_eq]
      rw [hselect]
      rfl
    rw [pressAll_cons, pressAll_cons, hnormal, hvisual, hmove]
    exact ih (h.move m) hnames

theorem press_v (h : e.Stands) :
    e.press (.char 'v') = (e.select e.position e.position, .none) := by
  have hne : ¬ e.text.length = 0 := by
    have := h.position_lt
    omega
  have hvisual : e.toVisual = e.select e.position e.position := by
    rw [toVisual, if_neg hne, h.onChar_eq, select, h.pending_eq]
  rw [press_eq_pressFirst h.mode_eq h.pending_eq, ← hvisual]
  rfl

/-- **Behind `v`, motions select from where they start to where they lead.** -/
theorem pressAll_v (h : e.Stands) (hnames : ∀ name ∈ names, name ∈ motionNames) :
    e.pressAll ("v" :: names) = e.select e.position (e.pressAll names).position := by
  have hkey : Key.ofName "v" = .char 'v' := rfl
  rw [pressAll_cons, hkey, h.press_v, h.pressAll_select hnames]

end Stands

/-! ## Selections -/

theorem selection_select (ha : a < e.text.length) (hi : i < e.text.length) :
    (e.select a i).selection = some (min a i, max a i) := by
  have hne : ¬ e.text.length = 0 := by omega
  have hanchor : min a (e.text.length - 1) = a := by omega
  have hcursor : (e.select a i).onChar = i := by
    simp only [onChar, position, select, Int.toNat_natCast]
    omega
  unfold selection
  rw [hcursor]
  simp only [select, if_neg hne, hanchor]
  split <;> congr 2 <;> omega

/-- The editor with the characters from the first to the last position in its register. -/
def copyOut (e : Editor) (first last : Nat) : Editor :=
  { e with register := (e.text.take (last + 1)).drop first }

/-- The editor without the characters from the first to the last position: the cursor is on the
character that was behind them, or on the last one that is left. -/
def cutOut (e : Editor) (first last : Nat) : Editor :=
  let rest := e.text.take first ++ e.text.drop (last + 1)
  { e with text := rest, cursor := (min first (rest.length - 1) : Nat) }

namespace Stands

/-- **A selection is copied**, and the cursor stays. -/
theorem press_y_select (h : e.Stands) (ha : a < e.text.length) (hi : i < e.text.length) :
    (e.select a i).press (.char 'y')
      = ((e.copyOut (min a i) (max a i)).moveTo i, .yanked (min a i) (max a i)) := by
  have hselection := selection_select ha hi
  have hon : min i (e.text.length - 1) = i := by omega
  have hpress : (e.select a i).press (.char 'y') = (e.select a i).pressVisual (.char 'y') := rfl
  rw [hpress, pressVisual, yankSelection, hselection]
  simp only [toNormal, normalPosition, select, onChar, position, copyOut, Editor.moveTo]
  simp [hon, h.mode_eq, h.anchor_eq, h.pending_eq]

/-- **A selection is cut**, and the register stays. -/
theorem press_d_select (h : e.Stands) (ha : a < e.text.length) (hi : i < e.text.length) :
    (e.select a i).press (.char 'd') = (e.cutOut (min a i) (max a i), .none) := by
  have hselection := selection_select ha hi
  have hpress : (e.select a i).press (.char 'd') = (e.select a i).pressVisual (.char 'd') := rfl
  rw [hpress, pressVisual, deleteSelection, hselection]
  simp only [toNormal, normalPosition, select, onChar, position, cutOut]
  simp [h.mode_eq, h.anchor_eq, h.pending_eq]

end Stands

/-- There are two keys to cut. -/
theorem press_x_select (e : Editor) (a i : Nat) :
    (e.select a i).press (.char 'x') = (e.select a i).press (.char 'd') :=
  rfl

/-- **Visual mode selects what motions span.** Let motions lead from where an editor stands in
normal mode to another position. With `v` before them they select the characters between the two,
both ends among them: `d` or `x` cuts these out and leaves the register, and `y` copies them and
leaves the line, with the cursor where the motions led to. Each goes back to normal mode. -/
theorem press_visual (h : e.IsReachable) (hmode : e.mode = .normal) (hpending : e.pending = none)
    (htext : e.text ≠ []) (hnames : ∀ name ∈ names, name ∈ motionNames) :
    let target := (e.pressAll names).position
    let first := min e.position target
    let last := max e.position target
    let rest := e.text.take first ++ e.text.drop (last + 1)
    let cut := { e with text := rest, cursor := (min first (rest.length - 1) : Nat) }
    let copied :=
      { e with
        cursor := (e.pressAll names).cursor
        register := (e.text.take (last + 1)).drop first }
    (e.pressAll ("v" :: names)).press (Key.ofName "d") = (cut, .none) ∧
      (e.pressAll ("v" :: names)).press (Key.ofName "x") = (cut, .none) ∧
      (e.pressAll ("v" :: names)).press (Key.ofName "y") = (copied, .yanked first last) := by
  have hstands := h.wellFormed.stands hmode hpending htext
  obtain ⟨i, hi, hmoved⟩ := hstands.exists_pressAll_eq hnames
  have hposition : (e.pressAll names).position = i := by
    rw [hmoved]
    rfl
  have hcursor : (e.pressAll names).cursor = (i : Nat) := by
    rw [hmoved]
    rfl
  have hselected := hstands.pressAll_v hnames
  rw [hposition] at hselected
  rw [hposition, hcursor, hselected]
  have hcut := hstands.press_d_select hstands.position_lt hi
  exact ⟨hcut, (press_x_select e _ _).trans hcut, hstands.press_y_select hstands.position_lt hi⟩

/-- A sum in normal mode, with the cursor on the first digit behind the sign. -/
def resting : Editor :=
  (ofText "12+34".toList []).performAll (["<esc>", "h"].map .press)

theorem isReachable_resting : resting.IsReachable ∧ resting.mode = .normal ∧
    resting.pending = none ∧ resting.text ≠ [] :=
  ⟨⟨"12+34".toList, _, rfl⟩, by decide, by decide, by decide⟩

/-- There `b` and `l` lead to the second digit, and what is between the two is cut or copied. -/
theorem press_visual_resting :
    resting.IsReachable ∧ resting.mode = .normal ∧ resting.pending = none ∧ resting.text ≠ [] ∧
      (∀ name ∈ ["b", "l"], name ∈ motionNames) ∧
      (resting.pressAll ["v", "b", "l"]).press (Key.ofName "d")
        = (⟨"14".toList, 1, .normal, [], none, none⟩, .none) ∧
      (resting.pressAll ["v", "b", "l"]).press (Key.ofName "y")
        = (⟨"12+34".toList, 1, .normal, "2+3".toList, none, none⟩, .yanked 1 3) := by
  obtain ⟨hreachable, hmode, hpending, htext⟩ := isReachable_resting
  have hnames : ∀ name ∈ ["b", "l"], name ∈ motionNames := by decide
  obtain ⟨hcut, -, hcopied⟩ := press_visual hreachable hmode hpending htext hnames
  exact ⟨hreachable, hmode, hpending, htext, hnames, hcut.trans (by decide),
    hcopied.trans (by decide)⟩

/-! ## Operators -/

/-- What an operator covers with a motion that is no word motion: from the cursor to where the
motion leads, both ends among it. -/
theorem span_eq_of_ne_word (htext : e.text ≠ []) (hw : m ≠ .wordForward) (hb : m ≠ .wordBackward) :
    e.span m = some (min e.onChar (e.target m), max e.onChar (e.target m) + 1) := by
  have hlength : 0 < e.text.length := List.length_pos_iff.2 htext
  have hon := e.onChar_le
  have htarget := e.target_le m
  have hstop : min (max e.onChar (e.target m) + 1) e.text.length
      = max e.onChar (e.target m) + 1 := by omega
  rw [← hstop, span, if_neg (Nat.ne_of_gt hlength)]
  cases m with
  | wordForward => exact absurd rfl hw
  | wordBackward => exact absurd rfl hb
  | left | right | lineStart | lineEnd => rfl

/-- The second key of an operator, if it moves, copies what its motion covers. -/
theorem Stands.press_operator (h : e.Stands) (hkey : motionOfKey? key = some m)
    (hspan : e.span m = some (first, last + 1)) :
    (e.pressAll ["y"]).press key = (e.copyOut first last, .yanked first last) := by
  have hwaits : e.pressAll ["y"] = { e with pending := some 'y' } := by
    have hy : e.press (Key.ofName "y") = ({ e with pending := some 'y' }, .none) :=
      press_eq_pressFirst h.mode_eq h.pending_eq _
    rw [pressAll_cons, hy, pressAll_nil]
  have hletGo : { e with pending := none } = e := by
    rw [← h.pending_eq]
  have hne : key ≠ .char 'y' := by
    rintro rfl
    cases hkey
  have hpress : { e with pending := some 'y' }.press key = e.pressPending 'y' key :=
    press_eq_pressPending (e := { e with pending := some 'y' }) h.mode_eq rfl key
  rw [hwaits, hpress, pressPending, hletGo]
  simp only [ne_eq, not_true_eq_false, if_false, if_neg hne, hkey, hspan, yankMotion]
  rfl

/-- **An operator copies what visual mode would select.** For every key that moves but for words,
`y` and the key copy and announce what `v`, the key and `y` do, and leave all else the same but for
the cursor, which stays where it was. -/
theorem press_operator_eq_visual (h : e.IsReachable) (hmode : e.mode = .normal)
    (hpending : e.pending = none) (htext : e.text ≠ []) (hname : name ∈ motionNames)
    (hw : name ≠ "w") (hb : name ≠ "b") :
    let operated := (e.pressAll ["y"]).press (Key.ofName name)
    let selected := (e.pressAll ["v", name]).press (Key.ofName "y")
    operated = ({ selected.1 with cursor := e.cursor }, selected.2) ∧
      ∃ first last, operated.2 = .yanked first last := by
  have hstands := h.wellFormed.stands hmode hpending htext
  obtain ⟨m, hm, hforward, hbackward⟩ := exists_motion_ne_word hname hw hb
  have hspan := span_eq_of_ne_word htext hforward hbackward
  rw [hstands.onChar_eq] at hspan
  have hoperated := hstands.press_operator hm hspan
  have hmoved : e.pressAll [name] = e.move m := by
    rw [pressAll_cons, press_motion (by simp [hmode]) hpending hm, pressAll_nil]
  have hselected : e.pressAll ["v", name] = e.select e.position (e.target m) := by
    rw [hstands.pressAll_v (List.forall_mem_singleton.2 hname), hmoved]
    rfl
  have hcopied : (e.select e.position (e.target m)).press (Key.ofName "y") = _ :=
    hstands.press_y_select hstands.position_lt (hstands.target_lt m)
  rw [hselected, hoperated, hcopied]
  exact ⟨rfl, _, _, rfl⟩

/-- In the sum both copy the sign before the cursor, and the digit at it. -/
theorem press_operator_eq_visual_resting :
    resting.IsReachable ∧ resting.mode = .normal ∧ resting.pending = none ∧ resting.text ≠ [] ∧
      "h" ∈ motionNames ∧ "h" ≠ "w" ∧ "h" ≠ "b" ∧
      (resting.pressAll ["y"]).press (Key.ofName "h")
        = (⟨"12+34".toList, 3, .normal, "+3".toList, none, none⟩, .yanked 2 3) ∧
      (resting.pressAll ["v", "h"]).press (Key.ofName "y")
        = (⟨"12+34".toList, 2, .normal, "+3".toList, none, none⟩, .yanked 2 3) := by
  obtain ⟨hreachable, hmode, hpending, htext⟩ := isReachable_resting
  have hname : "h" ∈ motionNames := by decide
  have hw : "h" ≠ "w" := by decide
  have hb : "h" ≠ "b" := by decide
  obtain ⟨hsame, -⟩ := press_operator_eq_visual hreachable hmode hpending htext hname hw hb
  exact ⟨hreachable, hmode, hpending, htext, hname, hw, hb, hsame.trans (by decide), by decide⟩

/-- Words are left out for their edges: the operator stops where the word does, and visual mode goes
on to the next one. -/
example : ((ofText "ab+c".toList []).performAll (["<esc>", "0", "y", "w"].map .press)).register
      = "ab".toList ∧
    ((ofText "ab+c".toList []).performAll (["<esc>", "0", "v", "w", "y"].map .press)).register
      = "ab+c".toList := by
  decide

end Editor

end LineCalc
