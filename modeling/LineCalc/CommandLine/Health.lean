import LineCalc.Answer
import LineCalc.Settings
import LineCalc.Store.Basic
/-!
# LineCalc — the health check

Three things are tried: an expression with a known value, the sampling of an expression, and
finding the place of the state file. Each gives a line, and the last line counts.
-/

namespace LineCalc

/-- A thing that was tried: whether it went well, and what is said about it. -/
structure Check where
  passed : Bool
  text : String

namespace Check

/-- A line of the report. -/
def line (c : Check) : String :=
  (if c.passed then "[OK] " else "[FAIL] ") ++ c.text

/-- Evaluates without variables. -/
def evaluate (limits : Limits) (text : String) : Outcome Float :=
  Outcome.ofLine limits.depth Environment.empty limits.domain text

/-- The value that the expression of the check has, to twelve places. -/
def expected : Float := Decimal.toFloat false ⟨192, -2⟩

/-- How far off a value may be. -/
def tolerance : Float := Decimal.toFloat false ⟨1, -12⟩

/-- Evaluates an expression with a known value. -/
def ofValue (limits : Limits) : Check :=
  match evaluate limits "3((2+2)/5)^2" with
  | .value v =>
    if (v - expected).abs < tolerance then ⟨true, "Basic evaluation works"⟩
    else ⟨false, "Basic evaluation failed: expected 1.92, got " ++ Json.floatDisplay v⟩
  | .failed error _ => ⟨false, "Basic evaluation failed: " ++ error.message⟩
  | _ => ⟨false, "Basic evaluation failed"⟩

/-- Samples an expression. -/
def ofSamples (limits : Limits) : Check :=
  match evaluate limits "7x+1" with
  | .plotted _ samples =>
    if samples.isEmpty then ⟨false, "Plot sampling failed: no samples"⟩
    else ⟨true, "Plot sampling works (" ++ toString samples.length ++ " samples)"⟩
  | .failed error _ => ⟨false, "Plot sampling failed: " ++ error.message⟩
  | _ => ⟨false, "Plot sampling failed"⟩

/-- Finds the place of the state file. -/
def ofStore (store : Store) : Check :=
  match store.file? with
  | some file => ⟨true, "State file: " ++ file.text⟩
  | none => ⟨false, "State directory unavailable: " ++ StateError.noHome.message⟩

/-- All that is tried. -/
def all (limits : Limits) (store : Store) : List Check :=
  [ofValue limits, ofSamples limits, ofStore store]

/-- The line between the parts of the report. -/
def ruler : String := String.ofList (List.replicate 50 '-')

/-- **The report on the checks.** -/
def report (checks : List Check) : List String :=
  let passed := (checks.filter (·.passed)).length
  let failed := (checks.filter (! ·.passed)).length
  ["Running rcalc health check...", ruler] ++ checks.map line ++
    [ruler, "Health check complete: " ++ toString passed ++ " passed, " ++ toString failed ++
      " failed"]

end Check

end LineCalc
