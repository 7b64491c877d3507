import LineCalc.Json.Writer
import LineCalc.Entries
import LineCalc.Outcome
import LineCalc.Report
/-!
# LineCalc — the answer to one line

An `Answer` is an outcome laid out flat, field by field, as it is handed to whoever asked: whether
the line was accepted, and of the result, the error text, the assigned name, the free variables and
the samples those that there are. It is written as text for a reader, or as one JSON object with
only finite numbers in it.
-/

namespace LineCalc

/-- An outcome laid out flat. -/
structure Answer where
  ok : Bool
  result : Option Float
  error : Option String
  assigned : Option String
  unknowns : List String
  samples : Option (List (Float × Float))

namespace Answer

/-- The fields of an outcome. -/
def ofOutcome : Outcome Float → Answer
  | .value v => ⟨true, some v, none, none, [], none⟩
  | .assigned name v => ⟨true, some v, none, some name, [], none⟩
  | .plotted name samples => ⟨true, none, none, none, [name], some samples⟩
  | .failed error unknowns => ⟨false, none, some error.message, none, unknowns, none⟩

/-- Whether an answer is a plot. -/
def isPlot (a : Answer) : Bool :=
  a.ok && a.samples.isSome

/-- The name of an assignment, which an empty text is not. -/
def target? (a : Answer) : Option String :=
  a.assigned.filter (· ≠ "")

/-- The name that samples were taken over. -/
def label (a : Answer) : Except Fault String :=
  match a.unknowns with
  | [] => .error .noLabel
  | name :: _ => .ok name

/-- **An answer for a reader.** -/
def text (precision : Int) (a : Answer) : Except Fault String :=
  if !a.ok then .ok ("Error: " ++ a.error.getD "None")
  else
    match a.samples, a.target? with
    | some samples, _ => do Report.table precision (← a.label) samples
    | none, some name => do return name ++ " = " ++ (← Report.result precision a.result)
    | none, none => Report.result precision a.result

/-- **An answer as a JSON object**, with the line that was asked. -/
def toJson (line : String) (a : Answer) : Except Fault Json :=
  let head := [("ok", Json.bool a.ok), ("expression", Json.string line)]
  if !a.ok then .ok (.object (head ++ [("error", Json.ofOption Json.string a.error)]))
  else
    let members := head ++ [("result", Json.ofOption Json.ofFloat a.result)]
    let members := match a.target? with
      | some name => members ++ [("variable", .string name)]
      | none => members
    match a.samples with
    | none => .ok (.object members)
    | some samples => do
      let members := members ++ [("plot_data", .array (samples.map Json.ofSample))]
      return .object (Entries.set "variable" (.string (← a.label)) members)

end Answer

end LineCalc
