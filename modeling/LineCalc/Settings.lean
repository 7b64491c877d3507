import LineCalc.Desk
import LineCalc.Log
import LineCalc.Plot.Domain
/-!
# LineCalc — settings

Settings come from environment variables, and each has a default. A number that cannot be read is
an error of the whole; a switch is on only for the word `true`, in any case.
-/

namespace LineCalc

/-- The settings of a run. -/
structure Settings where
  stateDirectory : String
  autosave : Bool
  precision : Int
  domain : Domain
  plotFile : String
  maxDepth : Int
  logLevel : String

namespace Settings

/-- The version that is told. -/
def version : String := "0.4.0"

/-- The name of the environment variable that holds a setting. -/
def variableName (setting : String) : String := "RCALC_" ++ setting

/-- What can be set. -/
def names : List String :=
  ["STATE_DIR", "AUTOSAVE", "OUTPUT_PRECISION", "PLOT_X_MIN", "PLOT_X_MAX", "PLOT_STEP",
    "PLOT_FILE", "MAX_EXPRESSION_DEPTH", "LOG_LEVEL"]

/-- The value of a setting, or a default. -/
def valueOf (env : String → Option String) (name default : String) : String :=
  (env (variableName name)).getD default

/-- **The settings that environment variables give**, or nothing if one cannot be read. -/
def ofEnvironment? (env : String → Option String) : Option Settings := do
  let precision ← Numeral.int? (valueOf env "OUTPUT_PRECISION" "12")
  let start ← Numeral.float? (valueOf env "PLOT_X_MIN" "-10")
  let stop ← Numeral.float? (valueOf env "PLOT_X_MAX" "10")
  let step ← Numeral.float? (valueOf env "PLOT_STEP" "1")
  let maxDepth ← Numeral.int? (valueOf env "MAX_EXPRESSION_DEPTH" "100")
  return {
    stateDirectory := valueOf env "STATE_DIR" ""
    autosave := Text.lower (valueOf env "AUTOSAVE" "true") == "true"
    precision
    domain := ⟨start, stop, step⟩
    plotFile := valueOf env "PLOT_FILE" "rcalc_plot.png"
    maxDepth
    logLevel := valueOf env "LOG_LEVEL" "WARNING" }

/-- The settings where no variable is set. -/
def standard : Settings :=
  ⟨"", true, 12, Domain.standard, "rcalc_plot.png", 100, "WARNING"⟩

/-- The limits that lines are reckoned within. -/
def limits (s : Settings) : Except DomainError Limits := do
  return ⟨s.maxDepth, ← s.domain.points⟩

end Settings

end LineCalc
