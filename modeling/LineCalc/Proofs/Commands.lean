import LineCalc.Repl
import Mathlib.Data.List.TakeWhile
/-!
# LineCalc — lines that are commands

A line is a command if it starts with the word of one, in capitals or not, up to the first space.
Lower case comes to the same before and after the line is divided there (`Repl.splitWord_lower`). The
words that end a conversation are those of one command, so a line that starts with another word is
run as its command (`Repl.IsCommand.runCommand_eq`).
-/

namespace LineCalc

/-! ## Words of a line -/

namespace Text

theorem lower_eq (s : String) : lower s = String.ofList (s.toList.map Char.toLower) :=
  String.toList_inj.1 (String.toList_map.trans String.toList_ofList.symm)

/-- Only the space has the space as its lower-case form. -/
theorem toLower_eq_space_iff {c : Char} : c.toLower = ' ' ↔ c = ' ' := by
  unfold Char.toLower
  split
  · next hupper =>
    have hlow : 65 ≤ c.val.toNat := UInt32.le_iff_toNat_le.1 hupper.1
    have hhigh : c.val.toNat ≤ 90 := UInt32.le_iff_toNat_le.1 hupper.2
    have hne : c ≠ ' ' := by
      rintro rfl
      exact absurd hlow (by decide)
    refine iff_of_false (fun hspace => ?_) hne
    have hval : (c.val.toNat + 32) % 2 ^ 32 = 32 :=
      congrArg (fun c : Char => c.val.toNat) hspace
    omega
  · rfl

end Text

namespace Repl

variable {text : String} {word : CommandWord}

/-- **The words of a line in lower case** are those of the line in lower case. -/
theorem splitWord_lower (line : String) : splitWord (Text.lower line)
    = (Text.lower (splitWord line).1, Text.lower (splitWord line).2) := by
  have hspace : (fun c => decide (c ≠ ' ')) ∘ Char.toLower = fun c => decide (c ≠ ' ') := by
    funext c
    simp only [Function.comp_apply, ne_eq, Text.toLower_eq_space_iff]
  simp only [splitWord, Text.lower_eq, String.toList_ofList, List.takeWhile_map, List.dropWhile_map,
    hspace, List.map_drop]

/-! ## What becomes of a line -/

/-- The words that end a conversation are command words, of the command to quit. -/
theorem isQuit_eq_false {line : String}
    (h : CommandWord.ofWord? (Text.lower (splitWord line).1) ≠ some .quit) : isQuit line = false := by
  have hword : ∀ word, CommandWord.ofWord? (splitWord word).1 = some .quit →
      Text.lower line ≠ word := by
    rintro word hquit rfl
    rw [splitWord_lower] at hquit
    exact h hquit
  simp only [isQuit, Bool.or_eq_false_iff, beq_eq_false_iff_ne]
  exact ⟨hword "quit" rfl, hword "exit" rfl⟩

/-- **What becomes of a line that is neither empty nor a remark**: it is the end, or a command, or it is
submitted. -/
theorem process_eq_ite (hfilled : Text.trim text ≠ "")
    (hremark : isRemark (Text.trim text) = false) (r : Repl) :
    r.process text = if isQuit (Text.trim text) then ({ r with running := false }, .nothing)
      else (r.tryCommand (Text.trim text)).getD (r.submit (Text.trim text)) := by
  have hline : ¬ (Text.trim text = "" ∨ isRemark (Text.trim text) = true) := by
    simp only [hfilled, hremark, Bool.false_eq_true, or_self, not_false_eq_true]
  simp only [process, if_neg hline]
  cases r.tryCommand (Text.trim text) <;> rfl

/-- A line that does not start with the command to quit is not the end. -/
theorem process_eq (hfilled : Text.trim text ≠ "") (hremark : isRemark (Text.trim text) = false)
    (hquit : CommandWord.ofWord? (Text.lower (splitWord (Text.trim text)).1) ≠ some .quit)
    (r : Repl) :
    r.process text = (r.tryCommand (Text.trim text)).getD (r.submit (Text.trim text)) := by
  rw [process_eq_ite hfilled hremark, isQuit_eq_false hquit, if_neg Bool.false_ne_true]

/-- **Whether a text is a command**: once the blanks around it are gone it is no remark, and it starts
with the word of the command in any case. -/
structure IsCommand (text : String) (word : CommandWord) : Prop where
  filled : Text.trim text ≠ ""
  not_remark : isRemark (Text.trim text) = false
  word : CommandWord.ofWord? (Text.lower (splitWord (Text.trim text)).1) = some word

/-- Every command but the one to quit can be run. -/
theorem exists_runCommand_eq_some (r : Repl) (line : String) (hword : word ≠ .quit) :
    ∃ done, r.runCommand line word = some done := by
  cases word with
  | quit => exact absurd rfl hword
  | _ => exact ⟨_, rfl⟩

/-- What a line that starts with a command word is tried as. -/
theorem IsCommand.tryCommand (h : IsCommand text word) (r : Repl) : r.tryCommand (Text.trim text)
    = r.runCommand (Text.trim text) word := by
  simp only [Repl.tryCommand, splitWord_lower, h.word, Option.bind_eq_bind, Option.bind_some]

/-- **A command is run**, and its line is not submitted. -/
theorem IsCommand.runCommand_eq (h : IsCommand text word) (hword : word ≠ .quit) (r : Repl) :
    r.runCommand (Text.trim text) word = some (r.process text) := by
  have hquit : CommandWord.ofWord? (Text.lower (splitWord (Text.trim text)).1) ≠ some .quit := by
    rw [h.word]
    exact fun hquit => hword (Option.some.inj hquit)
  obtain ⟨done, hdone⟩ := r.exists_runCommand_eq_some (Text.trim text) hword
  rw [process_eq h.filled h.not_remark hquit, h.tryCommand r, hdone, Option.getD_some]

/-- A command that does the same whatever follows its word does it. -/
theorem IsCommand.process (h : IsCommand text word) (hword : word ≠ .quit) {r : Repl}
    {done : Repl × Printed} (hdone : ∀ line, r.runCommand line word = some done) :
    r.process text = done :=
  Option.some.inj ((h.runCommand_eq hword r).symm.trans (hdone _))

end Repl

end LineCalc
