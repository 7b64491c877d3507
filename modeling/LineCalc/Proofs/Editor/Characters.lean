import LineCalc.Editor.Modes
/-!
# LineCalc — the characters in an editor

An editor comes by characters in two ways: a text is put in its line from outside, or a key types
one that can be shown. All its operations only cut, copy and paste what is there. So a property of
all characters in the line and in the register (`Holds`) stays as it is, if the characters that can
be shown have it (`Holds.press`).
-/

namespace LineCalc

namespace Editor

variable {p : Char → Prop} {e : Editor}

/-- Whether all characters in the line and in the register have a property. -/
structure Holds (p : Char → Prop) (e : Editor) : Prop where
  text : ∀ c ∈ e.text, p c
  register : ∀ c ∈ e.register, p c

theorem holds_ofText {text register : List Char} (htext : ∀ c ∈ text, p c)
    (hregister : ∀ c ∈ register, p c) : (ofText text register).Holds p :=
  ⟨htext, hregister⟩

theorem holds_empty : empty.Holds p :=
  holds_ofText (List.forall_mem_nil p) (List.forall_mem_nil p)

namespace Holds

theorem setText (h : e.Holds p) {text : List Char} (htext : ∀ c ∈ text, p c) :
    (e.setText text).Holds p :=
  holds_ofText htext h.register

theorem clear (h : e.Holds p) : e.clear.Holds p :=
  h.setText (List.forall_mem_nil p)

/-! ## Parts of the line -/

theorem take (h : e.Holds p) (n : Nat) : ∀ c ∈ e.text.take n, p c :=
  fun c hc => h.text c (List.mem_of_mem_take hc)

theorem drop (h : e.Holds p) (n : Nat) : ∀ c ∈ e.text.drop n, p c :=
  fun c hc => h.text c (List.mem_of_mem_drop hc)

/-- What is copied of the line. -/
theorem slice (h : e.Holds p) (first stop : Nat) : ∀ c ∈ (e.text.take stop).drop first, p c :=
  fun c hc => h.take stop c (List.mem_of_mem_drop hc)

/-- The line with characters put in. -/
theorem splice (h : e.Holds p) {cs : List Char} (hcs : ∀ c ∈ cs, p c) (i j : Nat) :
    ∀ c ∈ e.text.take i ++ cs ++ e.text.drop j, p c :=
  List.forall_mem_append.2 ⟨List.forall_mem_append.2 ⟨h.take i, hcs⟩, h.drop j⟩

/-- The line with characters taken out. -/
theorem cut (h : e.Holds p) (i j : Nat) : ∀ c ∈ e.text.take i ++ e.text.drop j, p c :=
  List.forall_mem_append.2 ⟨h.take i, h.drop j⟩

/-! ## Operations -/

/-- Where the cursor stands makes no difference. -/
theorem clamp (h : e.Holds p) : e.clamp.Holds p := by
  unfold Editor.clamp
  split <;> exact ⟨h.text, h.register⟩

theorem toNormal (h : e.Holds p) : e.toNormal.Holds p :=
  ⟨h.text, h.register⟩

theorem toVisual (h : e.Holds p) : e.toVisual.Holds p := by
  unfold Editor.toVisual
  split <;> exact ⟨h.text, h.register⟩

theorem move (h : e.Holds p) (m : Motion) : (e.move m).Holds p :=
  ⟨h.text, h.register⟩

theorem enter (h : e.Holds p) {cs : List Char} (hcs : ∀ c ∈ cs, p c) : (e.enter cs).Holds p :=
  ⟨h.splice hcs _ _, h.register⟩

theorem backspace (h : e.Holds p) : e.backspace.Holds p := by
  unfold Editor.backspace
  split
  · exact h
  · exact ⟨h.cut _ _, h.register⟩

theorem deleteChar (h : e.Holds p) : e.deleteChar.Holds p := by
  unfold Editor.deleteChar
  split
  · exact h
  · exact clamp ⟨h.cut _ _, h.register⟩

theorem deleteSelection (h : e.Holds p) : e.deleteSelection.Holds p := by
  unfold Editor.deleteSelection
  split
  · exact h
  · exact ⟨h.cut _ _, h.register⟩

theorem yankSelection (h : e.Holds p) : e.yankSelection.Holds p := by
  unfold Editor.yankSelection
  split
  · exact h
  · exact ⟨h.text, h.slice _ _⟩

theorem yankMotion (h : e.Holds p) (m : Motion) : (e.yankMotion m).Holds p := by
  unfold Editor.yankMotion
  split
  · exact ⟨h.text, List.forall_mem_nil p⟩
  · exact ⟨h.text, h.slice _ _⟩

/-- What is pasted was in the register. -/
theorem pasteAt (h : e.Holds p) (i : Nat) : (e.pasteAt i).Holds p :=
  clamp ⟨h.splice h.register i i, h.register⟩

theorem pasteAfter (h : e.Holds p) : e.pasteAfter.Holds p := by
  unfold Editor.pasteAfter
  split
  · exact h
  · exact h.pasteAt _

theorem pasteBefore (h : e.Holds p) : e.pasteBefore.Holds p := by
  unfold Editor.pasteBefore
  split
  · exact h
  · exact h.pasteAt _

/-! ## Keys -/

theorem pressMotion (h : e.Holds p) (key : Key) : (e.pressMotion key).1.Holds p := by
  unfold Editor.pressMotion
  split
  · exact h.move _
  · exact h

/-- **Only what can be shown is typed.** -/
theorem pressInsert (hshown : ∀ c, Text.isPrintable c = true → p c) (h : e.Holds p) (key : Key) :
    (e.pressInsert key).1.Holds p := by
  cases key with
  | escape => exact h.toNormal
  | backspace => exact h.backspace
  | left | right => exact ⟨h.text, h.register⟩
  | char c =>
    simp only [Editor.pressInsert]
    split
    · next hc => exact h.enter (List.forall_mem_singleton.2 (hshown c hc))
    · exact h
  | enter | up | down | tab | backTab | unnamed => exact h

theorem pressPending (h : e.Holds p) (operator : Char) (key : Key) :
    (e.pressPending operator key).1.Holds p := by
  have hrest : Holds p { e with pending := none } := ⟨h.text, h.register⟩
  simp only [Editor.pressPending]
  split
  · exact hrest
  · split
    · split
      · exact hrest
      -- the whole line is copied
      · exact ⟨h.text, h.text⟩
    · split
      · exact hrest
      · split <;> exact hrest.yankMotion _

theorem pressFirst (h : e.Holds p) (key : Key) : (e.pressFirst key).1.Holds p := by
  unfold Editor.pressFirst
  split
  -- commands for the owner leave the editor as it is
  case h_1 | h_2 | h_3 | h_4 => exact h
  case h_5 | h_6 | h_7 | h_8 | h_13 => exact ⟨h.text, h.register⟩
  case h_9 => exact h.toVisual
  case h_10 => exact h.deleteChar
  case h_11 => exact h.pasteAfter
  case h_12 => exact h.pasteBefore
  case h_14 => exact h.pressMotion key

theorem pressNormal (h : e.Holds p) (key : Key) : (e.pressNormal key).1.Holds p := by
  unfold Editor.pressNormal
  split
  · exact h.pressPending _ key
  · exact h.pressFirst key

theorem pressVisual (h : e.Holds p) (key : Key) : (e.pressVisual key).1.Holds p := by
  unfold Editor.pressVisual
  split
  case h_1 | h_2 => exact h.toNormal
  case h_3 => exact h
  case h_4 => exact h.yankSelection.toNormal
  case h_5 | h_6 => exact h.deleteSelection.toNormal
  case h_7 => exact h.pressMotion key

/-- **A key brings no characters but those that can be shown.** -/
theorem press (hshown : ∀ c, Text.isPrintable c = true → p c) (h : e.Holds p) (key : Key) :
    (e.press key).1.Holds p := by
  unfold Editor.press
  cases e.mode with
  | insert => exact h.pressInsert hshown key
  | normal => exact h.pressNormal key
  | visual => exact h.pressVisual key

end Holds

end Editor

end LineCalc
