import LineCalc.Proofs.Commands
import LineCalc.Proofs.Label
import LineCalc.Proofs.Writing
/-!
# LineCalc — what the command to save says, and what it does

The command to save says that the state was saved, and says it in every case: whether it was is not
looked at. So its word is good as far as the write is (`Repl.process_save`). Where a file can be
written, and no error or name of the history holds a number that is not finite, the state is in the
file and is read from it. This takes a history whose entries are found again in their text, which
every session has that started from what was loaded (`Repl.isRestorable_takeAll`). Where no file can
be written the word is false: nothing has changed, and nothing can be read.
-/

namespace LineCalc

/-! ## Histories that are found again -/

/-- A place that no file can be written in has none to read. -/
theorem Store.read_ne_ok {store : Store} (h : ¬ store.IsUsable) (s : SavedState) :
    store.read ≠ .ok s := by
  intro hread
  obtain ⟨directory, bytes, rfl⟩ := exists_file_of_read hread
  exact h ⟨directory, _, rfl, Slot.noConfusion⟩

namespace Repl

/-- **Whatever happens in a session**, its state is one that is found again, if it was at the
start. -/
theorem isRestorable_takeAll {start : Repl} (h : start.desk.session.toState.IsRestorable)
    (events : List Event) : (start.takeAll events).desk.session.toState.IsRestorable := by
  induction events using List.reverseRecOn with
  | nil => exact h
  | append_singleton events event ih =>
    rw [takeAll_append_singleton]
    rcases (start.takeAll events).toState_take event with hcleared | ⟨submitted, hstate⟩
    · rw [hcleared]
      exact SavedState.isRestorable_empty
    · rw [hstate]
      exact ih.apply _

/-! ## The command to save -/

variable {text : String}

/-- What the command to save says. -/
def savedMessage : Printed :=
  .ofLine "State saved."

/-- **The command to save saves, and says so in any case.** -/
theorem process_of_save (h : IsCommand text .save) (r : Repl) :
    r.process text = ({ r with desk := r.desk.save }, savedMessage) :=
  h.process CommandWord.noConfusion fun _ => rfl

/-- **How far the word of the command to save is good.** A session has started from what was loaded,
anything may have happened in it, and anything may have become of the place to save in. The command
says that the state was saved. If a file can be written in the place and the state has finite numbers
only, it was: the state is read from the file, but for halves of pairs side by side, and exactly if
its text is read as the value that it was written from. Otherwise the place is left as it was; and if
it is because no file can be written there, no state can be read from it either. -/
theorem process_save {place : Store} {saved : SavedState} (hload : place.load = .ok saved)
    {text : String} (htext : IsCommand text .save) (autosave : Bool) (limits : Limits)
    (precision : Int) (logLevel : Nat) (events : List Event) (found : Store) :
    let start := ofDesk ⟨Session.ofState saved, place, autosave, limits⟩ precision logLevel
    let desk := (start.takeAll events).desk.foundAt (some found)
    let r := { start.takeAll events with desk := desk }
    let state := desk.session.toState
    let after := (r.process text).1.desk.store
    (r.process text).2 = savedMessage ∧
      (found.IsUsable → state.IsFinite → after.read = .ok state.reread ∧
        (Json.read state.toJson.text = .ok state.toJson → after.read = .ok state)) ∧
      (¬ (found.IsUsable ∧ state.IsFinite) → after = found) ∧
      (¬ found.IsUsable → ∀ s, after.read ≠ .ok s) := by
  intro start desk r state after
  have hprocess : r.process text = ({ r with desk := desk.save }, savedMessage) :=
    process_of_save htext r
  have hafter : after = (found.write state).2 :=
    congrArg (fun p : Repl × Printed => p.1.desk.store) hprocess
  have hstart : start.desk.session.toState.IsRestorable := Store.isRestorable_of_load hload
  have hstate : state.IsRestorable := isRestorable_takeAll hstart events
  have hkept : ¬ (found.IsUsable ∧ state.IsFinite) → after = found := by
    intro hnot
    rw [← hstate.flaw?_eq_none_iff, ← Store.exists_write_eq_ok_iff] at hnot
    cases hwrite : (found.write state).1 with
    | ok file => exact absurd ⟨file, hwrite⟩ hnot
    | error e => rw [hafter, Store.snd_write_of_error hwrite]
  refine ⟨congrArg Prod.snd hprocess, fun husable hfinite => ?_, hkept, fun hnot s => ?_⟩
  · obtain ⟨directory, slot, rfl, hslot⟩ := husable
    have hwritten : after = Store.holding directory state := by
      rw [hafter, Store.write_folder_of_flaw? (hstate.flaw?_eq_none_iff.2 hfinite) hslot]
      rfl
    rw [hwritten]
    refine ⟨Store.read_holding_of_isRestorable hstate, fun hread => ?_⟩
    rw [Store.holding, Store.read_file hread, SavedState.toJson_eq, Store.ofJson,
      SavedState.ofMembers_members hstate.values hstate.filled]
  · rw [hkept fun h => hnot h.1]
    exact Store.read_ne_ok hnot s

/-- The word in any case, among blanks and with more behind it, is the command to save. -/
theorem isCommand_save : IsCommand " SAVE now" .save where
  filled := by decide
  not_remark := by decide
  word := by
    have hfirst : (splitWord (Text.trim " SAVE now")).1 = "SAVE" := by decide
    rw [hfirst, Text.lower_eq]
    decide

/-- A session that has started in an empty place is read back once it is saved there, and nothing can
be read if the home directory has been taken away. -/
theorem process_save_started :
    (Store.folder ⟨"/", ["state"]⟩ .missing).load = .ok SavedState.empty ∧
      IsCommand " SAVE now" .save ∧
      let place := Store.folder ⟨"/", ["state"]⟩ .missing
      let start := ofDesk ⟨Session.ofState .empty, place, false, ⟨200, []⟩⟩ 6 30
      (start.process " SAVE now").2 = savedMessage ∧
        (start.process " SAVE now").1.desk.store.read = .ok SavedState.empty ∧
        let r := { start with desk := start.desk.foundAt (some .homeless) }
        (r.process " SAVE now").2 = savedMessage ∧
          ∀ s, (r.process " SAVE now").1.desk.store.read ≠ .ok s := by
  have hload : (Store.folder ⟨"/", ["state"]⟩ .missing).load = .ok SavedState.empty := rfl
  have hsaved := process_save hload isCommand_save false ⟨200, []⟩ 6 30 []
  obtain ⟨hsaid, hread, -, -⟩ := hsaved (.folder ⟨"/", ["state"]⟩ .missing)
  obtain ⟨hclaimed, -, -, hnone⟩ := hsaved .homeless
  refine ⟨hload, isCommand_save, hsaid, ?_, hclaimed, hnone fun ⟨_, _, h, _⟩ => nomatch h⟩
  exact (hread ⟨_, _, rfl, Slot.noConfusion⟩ (SavedState.isStrict_toJson_iff.1 rfl)).1

/-- Not every session that is said to be saved can be read: without a home directory it is said as
well. -/
theorem not_forall_process_save : ¬ ∀ r : Repl, (r.process "save").2 = savedMessage →
    ∃ s, (r.process "save").1.desk.store.read = .ok s := by
  intro hsaved
  have hsave : IsCommand "save" .save := ⟨by decide, by decide, by rw [Text.lower_eq]; decide⟩
  let r := ofDesk ⟨Session.ofState .empty, .homeless, false, ⟨200, []⟩⟩ 6 30
  obtain ⟨s, hread⟩ := hsaved r (congrArg Prod.snd (process_of_save hsave r))
  rw [process_of_save hsave r] at hread
  cases hread

end Repl

end LineCalc
