import LineCalc.Desk
import LineCalc.Log
import LineCalc.Report
import LineCalc.Settings
/-!
# LineCalc — line by line

A front end that reads lines and prints. A line is a remark, one of a dozen command words with what
follows it, or an expression, which is submitted to the desk. Command words are taken in any case,
and none is a single letter, since letters are variables. `quit` and `exit` stop only where they
stand alone.

`process` takes a line with as much room as it takes to write the state, and `converse` takes lines one
after the other. `linesWithin` tells how far a conversation comes with so much room.
-/

namespace LineCalc

/-- What was printed, and the fault that broke it off, if one did. -/
structure Printed where
  text : String
  fault : Option Fault

namespace Printed

/-- Lines printed one after the other, up to the first that is a fault. -/
def ofLines : List (Except Fault String) → Printed
  | [] => ⟨"", none⟩
  | .error f :: _ => ⟨"", some f⟩
  | .ok line :: rest =>
    let p := ofLines rest
    ⟨line ++ "\n" ++ p.text, p.fault⟩

/-- One line. -/
def ofLine (line : String) : Printed :=
  ofLines [.ok line]

/-- Nothing printed. -/
def nothing : Printed := ofLines []

end Printed

/-- What is run by a command word. -/
inductive CommandWord where
  | help
  | definitions
  | history
  | clear
  | plot
  | save
  | debug
  | quit
deriving DecidableEq

namespace CommandWord

/-- The words and what they run. -/
def table : List (String × CommandWord) :=
  [("help", help), ("?", help), ("quit", quit), ("exit", quit), ("vars", definitions),
    ("variables", definitions), ("history", history), ("clear", clear), ("plot", plot),
    ("save", save), ("debug", debug)]

/-- The command of a word. -/
def ofWord? (word : String) : Option CommandWord :=
  table.lookup word

end CommandWord

/-- A conversation line by line. -/
structure Repl where
  desk : Desk
  /-- How many digits numbers are shown with. -/
  precision : Int
  running : Bool
  debug : Bool
  logLevel : Nat
  /-- Where an image is put if no other file is named. -/
  plotFile : String
  /-- What makes images, if there is anything. -/
  renderer : Option Plot.Renderer

namespace Repl

/-- At the start of a conversation, with nothing to make images. -/
def ofDesk (desk : Desk) (precision : Int) (logLevel : Nat) : Repl :=
  ⟨desk, precision, true, false, logLevel, Settings.standard.plotFile, none⟩

/-- What a line starts with up to the first space, and what follows that space. -/
def splitWord (line : String) : String × String :=
  let cs := line.toList
  (String.ofList (cs.takeWhile (· ≠ ' ')), String.ofList ((cs.dropWhile (· ≠ ' ')).drop 1))

/-! ## Commands -/

/-- The help text. -/
def helpText : String :=
  "rcalc - expression calculator\n\n" ++
  "  2+3*2          evaluate (precedence: + - < * / < unary < ^)\n" ++
  "  3(2+2)^2       implicit multiplication; letters are variables\n" ++
  "  x=2+3          assign a single-letter variable\n" ++
  "  7x+1           one unknown variable: sampled for plotting\n\n" ++
  "Commands:\n" ++
  "  vars           list variables\n" ++
  "  history        list evaluated expressions\n" ++
  "  plot [file]    save the latest samples as an image (needs matplotlib)\n" ++
  "  clear          forget history, variables and the saved state\n" ++
  "  save           write state to disk now\n" ++
  "  debug on|off   toggle debug logging\n" ++
  "  help, quit\n"

/-- The variables by name. -/
def showVariables (r : Repl) : Printed :=
  let env := r.desk.session.environment
  if env.size = 0 then .ofLine "No variables defined."
  else
    .ofLines (env.sortedNames.filterMap fun name =>
      (env.value? name).map fun x => ("  " ++ ·) <$> Report.definition r.precision name x)

/-- The history, numbered from the oldest entry. -/
def showHistory (r : Repl) : Printed :=
  let history := r.desk.session.history
  if history.isEmpty then .ofLine "History is empty."
  else
    .ofLines (history.zipIdx.map fun (e, i) =>
      ("  " ++ toString (i + 1) ++ ": " ++ ·) <$> Report.entry r.precision e)

/-- Forgets everything, the saved state as well. -/
def clear (r : Repl) : Repl × Printed :=
  let desk := r.desk.update (·.clear)
  let (result, store) := desk.store.reset
  let warning := match result with
    | .ok _ => []
    | .error e => [.ok ("Warning: " ++ e.message)]
  ({ r with desk := { desk with store := store } },
    .ofLines (warning ++ [.ok "Cleared history and variables."]))

/-- The label of the samples: that of the last entry that was plotted. -/
def plotLabel (history : List HistoryEntry) : Json :=
  (history.reverse.findSome? (·.plotName)).getD (.string "x")

/-- The file that is named behind the command to plot, as it is written. -/
def fileNamed (line : String) : String :=
  Text.trim (String.ofList (line.toList.drop "plot".length))

/-- Puts an image of the samples in a file. If that cannot be done they are shown as a table. -/
def showPlot (r : Repl) (file : String) : Printed :=
  match r.desk.session.plot with
  | none => .ofLine "Nothing to plot yet. Enter an expression with one unknown, e.g. 7x+1"
  | some samples =>
    let target := if file = "" then r.plotFile else file
    let label := plotLabel r.desk.session.history
    match Plot.render r.renderer target label samples with
    | .ok () => .ofLine ("Plot saved to: " ++ target)
    | .error e =>
      .ofLines [.ok ("Error: " ++ e.message), Report.labelledTable r.precision label samples]

/-- Turns the telling of everything on or off: as the argument says, else the other way. -/
def setDebug (r : Repl) (argument : String) : Repl × Printed :=
  let on := if argument = "on" ∨ argument = "off" then argument == "on" else !r.debug
  ({ r with debug := on, logLevel := if on then Log.debug else Log.warning },
    .ofLine (if on then "Debug mode on." else "Debug mode off."))

/-- What follows the first word of a line, in lower case. -/
def argument (line : String) : String :=
  Text.trim (splitWord (Text.lower line)).2

/-- Runs the command that a line starts with. `quit` with anything behind it is none. -/
def runCommand (r : Repl) (line : String) : CommandWord → Option (Repl × Printed)
  | .help => some (r, .ofLine helpText)
  | .definitions => some (r, r.showVariables)
  | .history => some (r, r.showHistory)
  | .clear => some r.clear
  | .plot => some (r, r.showPlot (fileNamed line))
  | .save => some ({ r with desk := r.desk.save }, .ofLine "State saved.")
  | .debug => some (r.setDebug (argument line))
  | .quit => none

/-- The command that a line is, run. -/
def tryCommand (r : Repl) (line : String) : Option (Repl × Printed) := do
  r.runCommand line (← CommandWord.ofWord? (splitWord (Text.lower line)).1)

/-! ## Expressions -/

/-- What is printed about a submitted line. -/
def report (precision : Int) (line : String) : Outcome Float → Printed
  | .value v => .ofLines [Report.number precision v]
  | .assigned name v => .ofLines [Report.definition precision name v]
  | .plotted name samples =>
    .ofLines [
      .ok (line ++ " sampled over " ++ name ++ " (use 'plot' to save an image):"),
      Report.table precision name samples]
  | .failed error _ => .ofLine ("Error: " ++ error.message)

/-- Submits a line. -/
def submit (r : Repl) (line : String) : Repl × Printed :=
  let (desk, outcome) := r.desk.submitLine line
  ({ r with desk := desk },
    match outcome with
    | none => .nothing
    | some o => report r.precision line o)

/-! ## Lines -/

/-- Whether a line is a remark. -/
def isRemark (line : String) : Bool :=
  line.toList.head? == some '#'

/-- Whether a line ends the conversation. -/
def isQuit (line : String) : Bool :=
  Text.lower line == "quit" || Text.lower line == "exit"

/-- **Takes one line.** -/
def process (r : Repl) (text : String) : Repl × Printed :=
  let line := Text.trim text
  if line = "" ∨ isRemark line then (r, .nothing)
  else if isQuit line then ({ r with running := false }, .nothing)
  else
    match r.tryCommand line with
    | some done => done
    | none => r.submit line

/-- What is printed at the start. -/
def banner (version : String) : String :=
  "rcalc v" ++ version ++ " - type 'help' for commands, 'quit' to exit.\n"

/-- What is printed before a line is read. -/
def prompt (r : Repl) : String :=
  if r.debug then "DEBUG>>> " else ">>> "

/-- What is printed when reading a line is interrupted. -/
def interrupted : String := "\n[Interrupted] type 'quit' to exit\n"

/-- **A whole conversation** over given lines; a missing line is an interruption. It ends by `quit`
or with the lines. -/
def converse (r : Repl) : List (Option String) → Repl × Printed
  | [] => ({ r with running := false }, ⟨r.prompt, none⟩)
  | none :: rest =>
    let (r', p) := converse r rest
    (r', { p with text := r.prompt ++ interrupted ++ p.text })
  | some line :: rest =>
    let (r', p) := r.process line
    match p.fault with
    | some f => (r', ⟨r.prompt ++ p.text, some f⟩)
    | none =>
      if !r'.running then (r', ⟨r.prompt ++ p.text, none⟩)
      else
        let (r'', q) := converse r' rest
        (r'', { q with text := r.prompt ++ p.text ++ q.text })

/-! ## Too little room -/

/-- **Whether a line comes to a save**: the command to save does, and a submitted line. -/
def saves (r : Repl) (text : String) : Bool :=
  let line := Text.trim text
  if line = "" ∨ isRemark line ∨ isQuit line then false
  else
    match CommandWord.ofWord? (splitWord (Text.lower line)).1 with
    | some .save => true
    | some .quit => r.desk.lineSaves line
    | some _ => false
    | none => r.desk.lineSaves line

/-- Whether a line is broken off at its save, for want of room to write the state in. -/
def exhausts (room : Nat) (r : Repl) (text : String) : Bool :=
  r.saves text && r.desk.store.exhausts room (r.process text).1.desk.session.toState

/-- The lines of a conversation up to the first that is broken off, and whether there is one. What
comes behind the end of the conversation is left out as well. -/
def linesWithin (room : Nat) (r : Repl) : List (Option String) → List (Option String) × Bool
  | [] => ([], false)
  | none :: rest =>
    let (lines, exhausted) := linesWithin room r rest
    (none :: lines, exhausted)
  | some line :: rest =>
    if r.exhausts room line then ([], true)
    else
      let (r', p) := r.process line
      if p.fault.isSome || !r'.running then ([some line], false)
      else
        let (lines, exhausted) := linesWithin room r' rest
        (some line :: lines, exhausted)

end Repl

end LineCalc
