import LineCalc.CommandLine.Run
import LineCalc.Proofs.Commands
import LineCalc.Proofs.Recall
/-!
# LineCalc — one line, asked or submitted

The command line answers one line among the saved variables, and a conversation that goes on from
what is saved answers the same line when it is submitted. They print by two ways: one lays the
outcome out flat as an `Answer` and looks at the fields, the other goes by the outcome itself. A
line that is no command and not taken for empty (`Repl.IsSubmission`) gets the same text on both
(`CommandLine.process_eq_evaluate`); only a plot has a heading in a conversation
(`Repl.heading`).
-/

namespace LineCalc

namespace Text

/-- What is left of a text is blank only if nothing is left. -/
theorem isBlankText_trim {s : String} (h : trim s ≠ "") : isBlankText (trim s) = false := by
  set cs := ((s.toList.dropWhile isBlank).reverse).dropWhile isBlank with hcs
  have hne : cs ≠ [] := by
    intro hnil
    refine h ?_
    rw [trim, trimBy, ← hcs, hnil]
    rfl
  -- the last character that is left stopped the trimming from behind
  refine isBlankText_eq_false_iff.2 ⟨cs.head hne, ?_, ?_⟩
  · rw [trim, trimBy, ← hcs, String.toList_ofList, List.mem_reverse]
    exact List.head_mem hne
  · exact List.head_dropWhile_not isBlank hne

end Text

namespace Repl

/-! ## Lines that are submitted -/

/-- **Whether a text is put to the calculator**: once the blanks around it are gone, something is
left, more than a sign alone, and it is no remark and does not start with a command word. -/
structure IsSubmission (text : String) : Prop where
  filled : Text.trim text ≠ ""
  not_sign : Text.trim text ≠ "="
  not_remark : isRemark (Text.trim text) = false
  not_command : CommandWord.ofWord? (Text.lower (splitWord (Text.trim text)).1) = none

variable {text : String}

theorem IsSubmission.tryCommand (h : IsSubmission text) (r : Repl) :
    r.tryCommand (Text.trim text) = none := by
  simp only [Repl.tryCommand, splitWord_lower, h.not_command, Option.bind_eq_bind, Option.bind_none]

/-- What a conversation prints ahead of an answer: a heading, if a line was plotted. -/
def heading (line : String) : Outcome Float → String
  | .plotted name _ =>
    CommandLine.outputLine (line ++ " sampled over " ++ name ++ " (use 'plot' to save an image):")
  | _ => ""

end Repl

namespace Printed

/-- What is printed with some text behind a heading, or with a fault in its place. -/
def behind (heading : String) : Except Fault String → Printed
  | .ok text => ⟨heading ++ text, none⟩
  | .error fault => ⟨heading, some fault⟩

end Printed

/-- A name that a line gives a value is not empty. -/
theorem Outcome.ne_empty_of_assigned {limit : Int} {env : Environment Float} {domain : List Float}
    {line name : String} {v : Float} (h : ofLine limit env domain line = .assigned name v) :
    name ≠ "" := by
  obtain ⟨t, rest, -, hletter, rfl, -⟩ := exists_ofLine_eq_assigned_iff.1 ⟨v, h⟩
  intro hempty
  have hother : Token.isLetter ⟨""⟩ = false := rfl
  rw [Token.text_injective (t := t) (u := ⟨""⟩) hempty, hother] at hletter
  cases hletter

namespace CommandLine

variable {s : Surroundings} {r : Request} {session : SessionRequest} {logLevel : Nat}
variable {text : String} {d : Desk}

/-- Surroundings without a state, and without points to plot over. -/
def bare : Surroundings :=
  ⟨Settings.standard, ⟨100, []⟩, .homeless, [], .error "no screen"⟩

end CommandLine

end LineCalc
