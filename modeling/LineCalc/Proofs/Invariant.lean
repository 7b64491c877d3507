import LineCalc.Proofs.Change
/-!
# LineCalc — what every action keeps

Keys, commands, lines and the front end reach a session by many ways, but it is changed by few
functions: the editor takes a key, the focus turns, a selection moves, a line is fetched or
recorded. `Desk.KeptByKeys` says of a property of sessions that each of these keeps it, and
`Desk.KeptByActions` that so do the two that only a front end asks for. The ways are gone through
once, here: such a property is kept by every key, by every submitted line, and by every run
(`KeptByActions.actAll`). Of characters keys keep what all that can be shown have
(`Desk.keptByKeys_holds`); a line that is put there may bring others.
-/

namespace LineCalc

namespace Desk

variable {p : Session → Prop}

/-- Whether a property of sessions is kept by all that a key can set off. -/
structure KeptByKeys (p : Session → Prop) : Prop where
  editor {s : Session} (h : p s) (key : Key) : p { s with editor := (s.editor.press key).1 }
  yanked {s : Session} (h : p s) (first last : Nat) : p { s with lastYank := some (first, last) }
  focusOn {s : Session} (h : p s) (f : Focus) : p (s.focusOn f)
  moveSelection {s : Session} (h : p s) (rows : Int) : p (s.moveSelection rows)
  recallSelected {s : Session} (h : p s) : p s.recallSelected.1
  recallLast {s : Session} (h : p s) : p s.recallLast.1
  recorded {d : Desk} (h : p d.session) :
    p (d.session.record d.session.line (d.evaluate d.session.line)).refresh

namespace KeptByKeys

variable {s : Session} {d : Desk}

theorem pressInList (hp : KeptByKeys p) (h : p s) (key : Key) : p (s.pressInList key) := by
  unfold Session.pressInList
  split
  case h_1 | h_2 => exact hp.moveSelection h 1
  case h_3 | h_4 => exact hp.moveSelection h (-1)
  case h_5 => exact hp.recallSelected h
  case h_6 | h_7 => exact hp.focusOn h .input
  case h_8 | h_9 => exact hp.focusOn h _
  case h_10 => exact hp.focusOn h .history
  case h_11 => exact hp.focusOn h .definitions
  case h_12 => exact h

/-- **Submitting a line keeps it**, whatever the line comes to. -/
theorem submit (hp : KeptByKeys p) (h : p d.session) : p d.submit.1.session := by
  simp only [Desk.submit]
  split
  · exact h
  · split <;> exact hp.recorded h

theorem obey (hp : KeptByKeys p) (h : p d.session) (key : Key) (c : Command) :
    p (d.obey key c).session := by
  cases c with
  | none =>
    simp only [Desk.obey]
    split
    · exact hp.recallLast h
    · exact h
  | submit => exact hp.submit h
  | exitInput => exact hp.focusOn h .history
  | focusNext => exact hp.focusOn h _
  | focusPrevious => exact hp.focusOn h _
  | yanked first last => exact hp.yanked h first last

/-- **A key keeps it**, in the line as in the lists. -/
theorem press (hp : KeptByKeys p) (h : p d.session) (key : Key) : p (d.press key).1.session := by
  have hediting := hp.editor h key
  unfold Desk.press
  split
  · rcases hpress : d.session.editor.press key with ⟨editor, command⟩
    rw [hpress] at hediting
    exact hp.obey (d := d.update fun s => { s with editor := editor }) hediting key command
  · exact hp.pressInList h key

end KeptByKeys

/-- Whether it is kept by a line that is put there and by forgetting everything, too. -/
structure KeptByActions (p : Session → Prop) : Prop extends KeptByKeys p where
  setLine {s : Session} (h : p s) (line : String) : p (s.setLine line)
  clear {s : Session} (h : p s) : p s.clear

namespace KeptByActions

variable {d : Desk}

/-- **A property of what is saved is kept by every action if it is by every change.** -/
theorem of_apply {p : SavedState → Prop} (hchange : ∀ (c : Change) (s : SavedState), p s → p (c.apply s))
    (hempty : p SavedState.empty) : KeptByActions fun s => p s.toState where
  editor h _ := h
  yanked h _ _ := h
  focusOn {s} h f := by rwa [s.toState_focusOn]
  moveSelection {s} h rows := by rwa [s.toState_moveSelection]
  recallSelected {s} h := by rwa [s.toState_recallSelected]
  recallLast {s} h := by rwa [s.toState_recallLast]
  recorded h := by
    rw [Session.toState_refresh, Change.toState_record]
    exact hchange _ _ h
  setLine h _ := h
  clear _ := hempty

theorem act (hp : KeptByActions p) (h : p d.session) (a : Action) : p (d.act a).1.session := by
  cases a with
  | key key =>
    rw [act_key]
    exact hp.press h key
  | line text =>
    have hset : p (d.update (·.setLine text)).session := hp.setLine h text
    rw [act_line, submitLine]
    exact hp.submit hset
  | submit =>
    rw [act_submit]
    exact hp.submit h
  | setLine text => exact hp.setLine h text
  | focus f => exact hp.focusOn h f
  | cycle steps => exact hp.focusOn h _
  | move rows => exact hp.moveSelection h rows
  | recallLast => exact hp.recallLast h
  | recallSelected => exact hp.recallSelected h
  | clear => exact hp.clear h
  | save => exact h

/-- **A run keeps what each of its actions keeps.** -/
theorem actAll (hp : KeptByActions p) (h : p d.session) (actions : List Action) :
    p (d.actAll actions).session := by
  induction actions generalizing d with
  | nil => exact h
  | cons a actions ih => exact ih (hp.act h a)

end KeptByActions

/-! ## Characters -/

/-- **Keys leave nothing but characters that were there and words that can be shown.** -/
theorem keptByKeys_holds {p : Char → Prop} (hshown : ∀ c, Text.isPrintable c = true → p c) :
    KeptByKeys (Session.Holds p) where
  editor h key := ⟨h.editor.press hshown key, h.state⟩
  yanked h _ _ := ⟨h.editor, h.state⟩
  focusOn h f := h.focusOn f
  moveSelection {s} h rows := h.of_eq (s.editor_moveSelection rows) (s.toState_moveSelection rows)
  recallSelected h := h.recallSelected
  recallLast h := h.recallLast
  recorded {d} h := by
    have hwords : ∀ w ∈ (d.evaluate d.session.line).words, Text.HasOnly p w :=
      fun w hw => (Outcome.isShown_of_mem_words _ _ _ _ w hw).mono hshown
    exact (h.record h.line hwords).refresh

end Desk

end LineCalc
