import LineCalc.Proofs.Editor.Characters
import LineCalc.Proofs.Outcome.Messages
import LineCalc.Proofs.Store
import LineCalc.Session
/-!
# LineCalc — what a session keeps

Most of what is done to a session concerns the editor, the focus and the selections, and leaves
alone what is saved of it (`toState_pressInList`, `toState_refresh`). What is saved changes where a
line is recorded or everything is forgotten.

`Session.Holds p` says that the editor and all that is saved, as it is shown, are made of characters
with the property `p`. Recalled lines come from the saved texts and recorded lines from the editor, so
a session keeps such a property.
-/

namespace LineCalc

open Text (HasOnly)

/-! ## Characters of what is saved -/

/-- Whether all characters of an entry, as it is shown, have a property. -/
structure HistoryEntry.Displays (p : Char → Prop) (e : HistoryEntry) : Prop where
  expression : HasOnly p e.expression
  carried : e.Carries fun v => HasOnly p v.display

/-- Whether all characters of a state, as it is shown, have a property. -/
structure SavedState.Displays (p : Char → Prop) (s : SavedState) : Prop where
  history : ∀ e ∈ s.history, e.Displays p
  name : ∀ e ∈ s.environment.entries, HasOnly p e.1
  definition : ∀ e ∈ s.environment.entries, HasOnly p e.2.expression

/-- A text is shown as it is. -/
theorem HistoryEntry.spells_iff {p : Char → Prop} {e : HistoryEntry} :
    e.Spells (HasOnly p) ↔ e.HasTexts ∧ e.Displays p := by
  constructor
  · intro h
    refine ⟨h.hasTexts, h.expression, fun v hv => ?_, fun v hv => ?_⟩
    · obtain ⟨s, rfl, hs⟩ := h.error v hv
      exact hs
    · obtain ⟨s, rfl, hs⟩ := h.plotName v hv
      exact hs
  · rintro ⟨htexts, hdisplays⟩
    refine ⟨hdisplays.expression, fun v hv => ?_, fun v hv => ?_⟩
    · obtain ⟨s, rfl⟩ := htexts.error v hv
      exact ⟨s, rfl, hdisplays.carried.error _ hv⟩
    · obtain ⟨s, rfl⟩ := htexts.plotName v hv
      exact ⟨s, rfl, hdisplays.carried.plotName _ hv⟩

/-- **A state whose errors and names are texts is made of the characters that it shows.** -/
theorem SavedState.spells_iff {p : Char → Prop} {s : SavedState} :
    s.Spells (HasOnly p) ↔ (∀ e ∈ s.history, e.HasTexts) ∧ s.Displays p := by
  constructor
  · intro h
    exact ⟨fun e he => (h.history e he).hasTexts,
      fun e he => (HistoryEntry.spells_iff.1 (h.history e he)).2, h.name, h.definition⟩
  · rintro ⟨htexts, hdisplays⟩
    exact ⟨fun e he => HistoryEntry.spells_iff.2 ⟨htexts e he, hdisplays.history e he⟩,
      hdisplays.name, hdisplays.definition⟩

namespace Session

variable {s s' : Session} {p : Char → Prop}

/-! ## What leaves the saved part alone -/

@[simp] theorem toState_focusOn (s : Session) (f : Focus) : (s.focusOn f).toState = s.toState := by
  cases f <;> rfl

@[simp] theorem editor_focusOn (s : Session) (f : Focus) : (s.focusOn f).editor = s.editor := by
  cases f <;> rfl

@[simp] theorem toState_cycle (s : Session) (steps : Int) : (s.cycle steps).toState = s.toState :=
  s.toState_focusOn _

@[simp] theorem toState_moveSelection (s : Session) (rows : Int) :
    (s.moveSelection rows).toState = s.toState := by
  unfold moveSelection
  split <;> rfl

@[simp] theorem editor_moveSelection (s : Session) (rows : Int) :
    (s.moveSelection rows).editor = s.editor := by
  unfold moveSelection
  split <;> rfl

@[simp] theorem toState_setLine (s : Session) (line : String) :
    (s.setLine line).toState = s.toState := rfl

@[simp] theorem toState_refresh (s : Session) : s.refresh.toState = s.toState :=
  toState_focusOn _ _

@[simp] theorem toState_recallSelected (s : Session) : s.recallSelected.1.toState = s.toState := by
  unfold recallSelected
  split
  · rfl
  · rw [toState_focusOn, toState_setLine]

@[simp] theorem toState_recallLast (s : Session) : s.recallLast.1.toState = s.toState := by
  unfold recallLast
  split <;> rfl

/-- **A key in a list changes nothing that is saved.** -/
@[simp] theorem toState_pressInList (s : Session) (key : Key) :
    (s.pressInList key).toState = s.toState := by
  unfold pressInList
  split <;> simp

/-! ## Characters -/

/-- Whether all characters of the editor and of what is to be saved, as it is shown, have a property. -/
structure Holds (p : Char → Prop) (s : Session) : Prop where
  editor : s.editor.Holds p
  state : s.toState.Displays p

/-- A session that starts from a saved state has its characters. -/
theorem holds_ofState {saved : SavedState} (h : saved.Displays p) :
    (ofState saved).Holds p :=
  ⟨Editor.holds_empty, h⟩

namespace Holds

/-- Nothing else counts. -/
theorem of_eq (h : s.Holds p) (heditor : s'.editor = s.editor) (hstate : s'.toState = s.toState) :
    s'.Holds p where
  editor := heditor ▸ h.editor
  state := hstate ▸ h.state

theorem focusOn (h : s.Holds p) (f : Focus) : (s.focusOn f).Holds p :=
  h.of_eq (s.editor_focusOn f) (s.toState_focusOn f)

theorem setLine (h : s.Holds p) {line : String} (hline : HasOnly p line) : (s.setLine line).Holds p :=
  ⟨h.editor.setText hline, h.state⟩

/-- The line in the editor. -/
theorem line (h : s.Holds p) : HasOnly p s.line :=
  Text.hasOnly_ofList h.editor.text

/-! ### Lines that are recalled -/

theorem selectedLine (h : s.Holds p) {line : String} (hline : s.selectedLine? = some line) :
    HasOnly p line := by
  unfold selectedLine? at hline
  cases hf : s.focus with
  | input =>
    rw [hf] at hline
    cases hline
  | history =>
    simp only [hf, bind, Option.bind_eq_some_iff] at hline
    obtain ⟨i, -, e, he, hline⟩ := hline
    cases hline
    exact (h.state.history e (List.mem_reverse.1 (List.mem_of_getElem? he))).expression
  | definitions =>
    simp only [hf, bind, Option.bind_eq_some_iff] at hline
    obtain ⟨i, -, name, -, d, hd, hline⟩ := hline
    cases hline
    exact h.state.definition (name, d) (Entries.mem_of_find? hd)

theorem recallSelected (h : s.Holds p) : s.recallSelected.1.Holds p := by
  unfold Session.recallSelected
  split
  · exact h
  · next line hline => exact (h.setLine (h.selectedLine hline)).focusOn .input

theorem recallLast (h : s.Holds p) : s.recallLast.1.Holds p := by
  unfold Session.recallLast
  split
  · exact h
  · next e he => exact h.setLine (h.state.history e (List.mem_of_getLast? he)).expression

/-! ### Lines that are recorded -/

theorem refresh (h : s.Holds p) : s.refresh.Holds p :=
  of_eq (s := { s with editor := s.editor.clear }) ⟨h.editor.clear, h.state⟩ (editor_focusOn _ _)
    (toState_focusOn _ _)

theorem clear (h : s.Holds p) : s.clear.Holds p where
  editor := h.editor
  state := ⟨List.forall_mem_nil _, List.forall_mem_nil _, List.forall_mem_nil _⟩

/-- An entry at the end of the history. -/
theorem addEntry (h : s.Holds p) {e : HistoryEntry} (he : e.Spells (HasOnly p)) :
    ∀ d ∈ s.history ++ [e], d.Displays p :=
  List.forall_mem_append.2
    ⟨h.state.history, List.forall_mem_singleton.2 (HistoryEntry.spells_iff.1 he).2⟩

/-- **What is recorded is the line and the words of its outcome.** -/
theorem record (h : s.Holds p) {line : String} (hline : HasOnly p line) {o : Outcome Float}
    (hwords : ∀ w ∈ o.words, HasOnly p w) : (s.record line o).Holds p := by
  refine ⟨?_, ?_⟩
  · cases o <;> exact h.editor
  · cases o with
    | value v =>
      exact ⟨h.addEntry (HistoryEntry.spells_ofResult hline v), h.state.name, h.state.definition⟩
    | plotted name samples =>
      have hname : HasOnly p name := hwords name (List.mem_singleton.2 rfl)
      exact ⟨h.addEntry (HistoryEntry.spells_ofPlot hline hname), h.state.name, h.state.definition⟩
    | failed error names =>
      have hmessage : HasOnly p error.message := hwords error.message (List.mem_singleton.2 rfl)
      exact ⟨h.addEntry (HistoryEntry.spells_ofError hline hmessage), h.state.name,
        h.state.definition⟩
    | assigned name v =>
      have hname : HasOnly p name := hwords name (List.mem_singleton.2 rfl)
      have hentries : ∀ e ∈ (s.environment.set name ⟨line, v⟩).entries,
          HasOnly p e.1 ∧ HasOnly p e.2.expression := by
        intro e he
        rcases Entries.mem_set he with rfl | he
        · exact ⟨hname, hline⟩
        · exact ⟨h.state.name e he, h.state.definition e he⟩
      exact ⟨h.state.history, fun e he => (hentries e he).1, fun e he => (hentries e he).2⟩

end Holds

end Session

end LineCalc
