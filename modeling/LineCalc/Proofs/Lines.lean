import LineCalc.Proofs.OneLine
/-!
# LineCalc — which lines are submitted

A line of a conversation that is neither empty nor a remark is looked at twice: as a whole, whether
it ends the conversation, and then by its first word, whether it is a command. The two ways part over
one command only. A line that starts with the word to quit and goes on is not the end, and is no
command that could be run, so it is submitted (`Repl.process_filled`). Every other line that starts
with a command word is run, and the session stays as it is or is forgotten; and what starts with no
such word is submitted once, and recorded as what it comes to.
-/

namespace LineCalc

namespace Repl

variable {r : Repl} {text line : String} {word : CommandWord} {done : Repl × Printed}

/-- **A command records nothing.** It leaves the session alone, or it is the one that forgets it. -/
theorem session_runCommand (h : r.runCommand line word = some done) :
    done.1.desk.session = r.desk.session ∨
      word = .clear ∧ done.1.desk.session = r.desk.session.clear := by
  rcases desk_runCommand h with hidle | hsaved | ⟨hword, hcleared⟩
  · exact .inl (congrArg Desk.session hidle)
  · rw [hsaved]
    exact .inl rfl
  · exact .inr ⟨hword, congrArg Desk.session hcleared⟩

/-- The end of a conversation, as a whole line. -/
theorem process_of_isQuit (hfilled : Text.trim text ≠ "")
    (hremark : isRemark (Text.trim text) = false) (hquit : isQuit (Text.trim text) = true)
    (r : Repl) : r.process text = ({ r with running := false }, .nothing) := by
  rw [process_eq_ite hfilled hremark, if_pos hquit]

/-- A line that starts with no word of a command to run is none. -/
theorem tryCommand_eq_none (hfilled : Text.trim text ≠ "")
    (hremark : isRemark (Text.trim text) = false) (hword : ∀ word, IsCommand text word → word = .quit)
    (r : Repl) : r.tryCommand (Text.trim text) = none := by
  cases hfirst : CommandWord.ofWord? (Text.lower (splitWord (Text.trim text)).1) with
  | none =>
    simp only [tryCommand, splitWord_lower, hfirst, Option.bind_eq_bind, Option.bind_none]
  | some word =>
    have hcommand : IsCommand text word := ⟨hfilled, hremark, hfirst⟩
    obtain rfl := hword word hcommand
    rw [hcommand.tryCommand r]
    rfl

/-- **What is neither run nor the end is submitted.** -/
theorem process_eq_submit (hfilled : Text.trim text ≠ "")
    (hremark : isRemark (Text.trim text) = false)
    (hother : ∀ word, IsCommand text word → word = .quit ∧ isQuit (Text.trim text) = false)
    (r : Repl) : r.process text = r.submit (Text.trim text) := by
  have hquit : isQuit (Text.trim text) = false := by
    by_contra hwhole
    have hfirst : CommandWord.ofWord? (Text.lower (splitWord (Text.trim text)).1) = some .quit := by
      by_contra hne
      exact hwhole (isQuit_eq_false hne)
    exact hwhole (hother .quit ⟨hfilled, hremark, hfirst⟩).2
  rw [process_eq_ite hfilled hremark, hquit, if_neg Bool.false_ne_true,
    tryCommand_eq_none hfilled hremark (fun word h => (hother word h).1), Option.getD_none]

/-- **A submitted line is recorded once**, as what it comes to. -/
theorem toState_submit {line : String} (hline : Text.isBlankText line = false) (r : Repl) :
    (r.submit line).1.desk.session.toState
      = (Change.ofOutcome line (r.desk.evaluate line)).apply r.desk.session.toState := by
  rw [desk_submit, Desk.toState_submitLine, nonblank?_eq_some_iff.2 ⟨hline, rfl⟩, Desk.changeOf]

/-- **What becomes of a line that is neither empty nor a remark.** If it starts with a command word
other than to quit, that command is run and records nothing: the session stays, or is forgotten by the
command to forget. If it is the word to quit, the conversation ends, and that is all. Any other line is
submitted, once; and one that starts with the word to quit and goes on is such a line. -/
theorem process_filled (hfilled : Text.trim text ≠ "") (hremark : isRemark (Text.trim text) = false)
    (r : Repl) :
    let line := Text.trim text
    let after := (r.process text).1
    (∀ word, IsCommand text word → word ≠ .quit →
      r.runCommand line word = some (r.process text) ∧
        (after.desk.session = r.desk.session ∨
          word = .clear ∧ after.desk.session = r.desk.session.clear)) ∧
    (isQuit line = true → r.process text = ({ r with running := false }, .nothing)) ∧
    ((∀ word, IsCommand text word → word = .quit ∧ isQuit line = false) →
      r.process text = r.submit line ∧
        after.desk.session.toState
          = (Change.ofOutcome line (r.desk.evaluate line)).apply r.desk.session.toState) := by
  refine ⟨fun word hcommand hword => ?_, fun hquit => ?_, fun hother => ?_⟩
  · have hrun := hcommand.runCommand_eq hword r
    exact ⟨hrun, session_runCommand hrun⟩
  · exact process_of_isQuit hfilled hremark hquit r
  · have hsubmit := process_eq_submit hfilled hremark hother r
    have hstate := toState_submit (Text.isBlankText_trim hfilled) r
    rw [← hsubmit] at hstate
    exact ⟨hsubmit, hstate⟩

/-- The word to quit with another one behind it starts as a command, and is not the end. -/
theorem isCommand_quit_now :
    IsCommand "quit now" .quit ∧ isQuit (Text.trim "quit now") = false := by
  have hline : Text.trim "quit now" = "quit now" := by decide
  refine ⟨⟨by decide, by decide, ?_⟩, ?_⟩
  · rw [Text.lower_eq]
    decide
  · rw [hline, isQuit, Text.lower_eq]
    decide

/-- So it is no command of another kind. -/
theorem eq_quit_of_isCommand_quit_now (word : CommandWord) (h : IsCommand "quit now" word) :
    word = .quit ∧ isQuit (Text.trim "quit now") = false :=
  ⟨Option.some.inj (h.word.symm.trans isCommand_quit_now.1.word), isCommand_quit_now.2⟩

/-- A conversation at its start, with nothing saved. -/
def fresh : Repl :=
  ofDesk ⟨Session.ofState .empty, .homeless, false, ⟨200, []⟩⟩ 6 30

/-- It is submitted, and comes to an error in the history. -/
theorem process_filled_quit_now : Text.trim "quit now" ≠ "" ∧
    isRemark (Text.trim "quit now") = false ∧
    (∀ word, IsCommand "quit now" word → word = .quit ∧ isQuit (Text.trim "quit now") = false) ∧
    (fresh.process "quit now").1.desk.session.history
      = [.ofError "quit now" "Unknown variables: q, u, i, t, n, o, w"] := by
  obtain ⟨hcommand, hquit⟩ := isCommand_quit_now
  obtain ⟨-, -, hsubmitted⟩ := process_filled hcommand.filled hcommand.not_remark fresh
  have hstate := (hsubmitted eq_quit_of_isCommand_quit_now).2
  exact ⟨hcommand.filled, hcommand.not_remark, eq_quit_of_isCommand_quit_now,
    congrArg SavedState.history hstate⟩

/-- Not every line that starts with a command word is kept out of the history. -/
theorem not_forall_history_le : ¬ ∀ (r : Repl) (text : String) (word : CommandWord),
    IsCommand text word →
      (r.process text).1.desk.session.history.length ≤ r.desk.session.history.length := by
  intro hkept
  have hle := hkept fresh "quit now" .quit isCommand_quit_now.1
  have hcommand := isCommand_quit_now.1
  rw [process_eq_submit hcommand.filled hcommand.not_remark eq_quit_of_isCommand_quit_now] at hle
  have hline : Text.isBlankText (Text.trim "quit now") = false := by decide
  have hhistory := congrArg SavedState.history (toState_submit hline fresh)
  have hlength : (fresh.submit (Text.trim "quit now")).1.desk.session.history.length = 1 :=
    congrArg List.length hhistory
  rw [hlength] at hle
  exact absurd hle (by decide)

end Repl

end LineCalc
