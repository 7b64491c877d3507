import LineCalc.Proofs.Json.Stable
import LineCalc.Proofs.OneLine
import LineCalc.Proofs.Outcome.Messages
import LineCalc.Proofs.Store
/-!
# LineCalc — an answer tells what came of a line

An answer in JSON has members for several things in one object, and one of them, `variable`, has two
uses: in a plot it is the name that was sampled over, otherwise the name that was assigned. Which of
them it is shows in the members around it. So the object tells the line and all that came of it, that
is, the change that a session would make for the line (`Change.ofAnswer?_answer`). Numbers that are
not finite are words in it, which are read as the numbers again; so there is no line whose answer
could not be written, and its text is read as an answer that tells the same (`Answer.told`). Only the
two halves of a pair that stand side by side in a line are told as the character that they make up, and
no reader could tell them apart (`Answer.not_exists_lineOf`).
-/

namespace LineCalc

open Text (joined halves HoldsNoHigh IsApart)

namespace Change

/-! ## Members of an answer -/

/-- The members of an answer that tells of a change. -/
def answer : Change → List (String × Json)
  | nothing => []
  | result line v => [("ok", .bool true), ("expression", .string line), ("result", .ofFloat v)]
  | error line message =>
    [("ok", .bool false), ("expression", .string line), ("error", .string message)]
  | plot line name samples =>
    [("ok", .bool true), ("expression", .string line), ("result", .null),
      ("plot_data", .array (samples.map Json.ofSample)), ("variable", .string name)]
  | definition line name v =>
    [("ok", .bool true), ("expression", .string line), ("result", .ofFloat v),
      ("variable", .string name)]

/-- The text under a name. -/
def textAt? (name : String) (members : List (String × Json)) : Option String :=
  match Entries.find? name members with
  | some (.string s) => some s
  | _ => none

/-- The number under a name. -/
def numberAt? (name : String) (members : List (String × Json)) : Option Float := do
  (← Entries.find? name members).toFloat.toOption

/-- What became of a line that was accepted, going by what there is: a number, a name and samples. -/
def accepted (line : String) (number : Option Float) (name : Option String)
    (samples : Option (List (Float × Float))) : Option Change :=
  match name, samples with
  | some name, some samples => some (plot line name samples)
  | some name, none => number.map (definition line name)
  | none, _ => number.map (result line)

/-- **What an answer tells**, going by its members alone. -/
def ofAnswer? : Json → Option Change
  | .object members => do
    let line ← textAt? "expression" members
    match ← Entries.find? "ok" members with
    | .bool true =>
      accepted line (numberAt? "result" members) (textAt? "variable" members)
        (← (SavedState.plotOf members).toOption)
    | .bool false => (textAt? "error" members).map (error line)
    | _ => none
  | _ => none

theorem numberAt?_of_find? {name : String} {members : List (String × Json)} {v : Float}
    (h : Entries.find? name members = some (.ofFloat v)) : numberAt? name members = some v := by
  rw [numberAt?, h]
  exact congrArg Except.toOption (Json.toFloat_ofFloat v)

/-- What is told by an answer to a line that was accepted. -/
theorem ofAnswer?_of_ok {members : List (String × Json)} {line : String}
    (samples : Option (List (Float × Float)))
    (hline : Entries.find? "expression" members = some (.string line))
    (hok : Entries.find? "ok" members = some (.bool true))
    (hsamples : Json.member? "plot_data" members
      = samples.map fun samples => .array (samples.map Json.ofSample)) :
    ofAnswer? (.object members)
      = accepted line (numberAt? "result" members) (textAt? "variable" members) samples := by
  simp only [ofAnswer?, textAt?, hline, hok, SavedState.plotOf_of_member? hsamples]
  rfl

/-- **A change is found again in its answer**, whatever its texts and numbers are. -/
theorem ofAnswer?_answer {c : Change} (h : c ≠ nothing) : ofAnswer? (.object c.answer) = some c := by
  cases c with
  | nothing => exact absurd rfl h
  | error line message => rfl
  | result line v =>
    have hnumber : numberAt? "result" (result line v).answer = some v := numberAt?_of_find? rfl
    rw [ofAnswer?_of_ok none rfl rfl rfl, hnumber]
    rfl
  | definition line name v =>
    have hnumber : numberAt? "result" (definition line name v).answer = some v :=
      numberAt?_of_find? rfl
    rw [ofAnswer?_of_ok none rfl rfl rfl, hnumber]
    rfl
  | plot line name samples =>
    rw [ofAnswer?_of_ok (some samples) rfl rfl rfl]
    rfl

/-- What holds of the parts of an answer holds of the answer. -/
theorem of_isHereditary {p : Json → Prop} (hp : Json.IsHereditary p) (hbool : ∀ b, p (.bool b))
    (c : Change) : p (.object c.answer) := by
  refine hp.object _ ?_
  cases c <;> simp only [answer, List.forall_mem_cons, List.not_mem_nil, false_implies, implies_true,
    hbool, hp.string, hp.ofFloat, hp.null, hp.samples, and_self]

/-! ## Answers that were written and read -/

/-- A change as it is told by an answer that was written and read. -/
def reread : Change → Change
  | nothing => nothing
  | result line v => result (joined line) v
  | error line message => error (joined line) (joined message)
  | plot line name samples => plot (joined line) (joined name) samples
  | definition line name v => definition (joined line) (joined name) v

/-- The members of an answer have some of six names, each once. -/
theorem names_answer_sublist (c : Change) : (Entries.names c.answer).Sublist
    ["ok", "expression", "result", "error", "plot_data", "variable"] := by
  cases c <;> simp [answer, Entries.names]

/-- **An answer is read as one that tells the same**, but for halves of pairs. -/
theorem reread_answer (c : Change) : (Json.object c.answer).reread = .object c.reread.answer := by
  have hsix : ∀ name ∈ ["ok", "expression", "result", "error", "plot_data", "variable"],
      joined name = name := by decide
  have hjoined : (Entries.names c.answer).map joined = Entries.names c.answer := by
    conv => rhs; rw [← List.map_id (Entries.names c.answer)]
    exact List.map_congr_left fun name hname => hsix name (c.names_answer_sublist.subset hname)
  have hmembers : c.answer.map (fun m => (m.1, m.2.reread)) = c.reread.answer := by
    cases c with
    | nothing | error line message => rfl
    | result line v | definition line name v =>
      simp only [answer, reread, List.map_cons, List.map_nil, Json.reread, Json.reread_ofFloat]
    | plot line name samples =>
      have hsamples := Json.reread_samples samples
      simp only [answer, reread, List.map_cons, List.map_nil, hsamples]
      rfl
  rw [Json.reread_object rfl hjoined (c.names_answer_sublist.nodup (by decide)), hmembers]

/-- Of what came of a line only the line can change by that: what else is told has no halves in it. -/
theorem reread_ofOutcome {line : String} {o : Outcome Float}
    (h : ∀ s ∈ o.words, HoldsNoHigh s) : (ofOutcome line o).reread = ofOutcome (joined line) o := by
  have hword : ∀ s ∈ o.words, joined s = s := fun s hs => Text.joined_of_holdsNoHigh (h s hs)
  cases o with
  | value v => rfl
  | assigned name v => exact congrArg (definition _ · v) (hword name (.head _))
  | plotted name samples => exact congrArg (plot _ · samples) (hword name (.head _))
  | failed e names => exact congrArg (error _) (hword e.message (.head _))

end Change

namespace Answer

/-- **The answer to a line is that of its change**, as long as no empty name is assigned. -/
theorem toJson_ofOutcome {line : String} {o : Outcome Float}
    (hname : ∀ name v, o = .assigned name v → name ≠ "") :
    (ofOutcome o).toJson line = .ok (.object (Change.ofOutcome line o).answer) := by
  cases o with
  | value v => rfl
  | plotted name samples => rfl
  | failed e names => rfl
  | assigned name v =>
    have htarget : (ofOutcome (.assigned name v)).target? = some name :=
      if_pos (decide_eq_true (hname name v rfl))
    simp only [toJson, htarget]
    rfl

/-- **What came of a line can be told from the answer to it.** For every line there is an answer, and
no number in it is anything but finite. By its members it tells the line and all that came of it: the
number, the name with the number that was assigned to it, the name with the samples that were taken
over it, or the message of the error. What its text is read as tells the same, but for halves of pairs
side by side in the line; and it is the very answer, if the line holds none. -/
theorem told (limit : Int) (env : Environment Float) (domain : List Float) (precision : Int)
    (line : String) :
    let o := Outcome.ofLine limit env domain line
    ∃ v, CommandLine.answerText true precision line (ofOutcome o) = .ok v.toText ∧
      (ofOutcome o).toJson line = .ok v ∧ v.isStrict = true ∧
      Change.ofAnswer? v = some (.ofOutcome line o) ∧
      ∃ w, Json.read v.text = .ok w ∧ Change.ofAnswer? w = some (.ofOutcome (joined line) o) ∧
        (IsApart line.toList → w = v) := by
  intro o
  have hwords : ∀ s ∈ o.words, HoldsNoHigh s := fun s hs =>
    (Outcome.isShown_of_mem_words limit env domain line s hs).mono
      fun _ => Text.isHighSurrogate_of_isPrintable
  have hjson : (ofOutcome o).toJson line = .ok (.object (Change.ofOutcome line o).answer) :=
    toJson_ofOutcome fun _ _ => Outcome.ne_empty_of_assigned
  have hreread : (Json.object (Change.ofOutcome line o).answer).reread
      = .object (Change.ofOutcome (joined line) o).answer := by
    rw [Change.reread_answer, Change.reread_ofOutcome hwords]
  refine ⟨.object (Change.ofOutcome line o).answer, ?_, hjson, ?_, ?_,
    (Json.object (Change.ofOutcome line o).answer).reread, ?_, ?_, ?_⟩
  · rw [CommandLine.answerText, hjson]
    rfl
  · exact Change.of_isHereditary Json.isHereditary_isStrict (fun _ => rfl) _
  · exact Change.ofAnswer?_answer (Change.ofOutcome_ne_nothing line o)
  · exact Json.read_text (Change.of_isHereditary Json.isHereditary_isReadable (fun _ => trivial) _)
  · rw [hreread]
    exact Change.ofAnswer?_answer (Change.ofOutcome_ne_nothing (joined line) o)
  · intro hapart
    rw [hreread, Text.joined_of_isApart hapart]

/-- **The line itself cannot always be told from its answer**: the two halves of a pair, side by side, have
the same answer as the one character that they make up. -/
theorem not_exists_lineOf : ¬ ∃ lineOf : String → Option String,
    ∀ (limit : Int) (env : Environment Float) (domain : List Float) (precision : Int)
      (line text : String),
      CommandLine.answerText true precision line (ofOutcome (Outcome.ofLine limit env domain line))
        = .ok text → lineOf text = some line := by
  rintro ⟨lineOf, hlineOf⟩
  -- nothing is made of either, and both are written alike
  have hanswer : ∀ line, Token.ofText line = [] →
      CommandLine.answerText true 12 line
          (ofOutcome (Outcome.ofLine 100 Environment.empty [] line))
        = .ok (Json.object (Change.error line "Empty expression").answer).toText := by
    intro line htokens
    rw [Outcome.ofLine, htokens]
    rfl
  have hwritten : Json.stringText halves = Json.stringText (joined halves) := by decide
  have hsame : (Json.object (Change.error halves "Empty expression").answer).toText
      = (Json.object (Change.error (joined halves) "Empty expression").answer).toText := by
    simp only [Json.toText, Change.answer, Json.text, Json.membersText, hwritten]
  have hone := hlineOf _ _ _ _ _ _ (hanswer halves (by decide))
  have hother := hlineOf _ _ _ _ _ _ (hanswer (joined halves) (by decide))
  rw [hsame, hother] at hone
  exact Text.joined_halves_ne (Option.some.inj hone)

end Answer

end LineCalc
