import LineCalc.CommandLine.Health
import LineCalc.CommandLine.Request
import LineCalc.Repl
import LineCalc.Screen.Basic
/-!
# LineCalc — a command line carried out

A command line is carried out in given `Surroundings`: the settings, the store, the lines that will
be typed, and the terminal. What comes of it is the `Finish`: exit code, output, the store as it is
left, and the frames that were drawn. A session goes on until a save runs out of room (`room`), and then
the program ends there.
-/

namespace LineCalc

/-- What a command line is carried out in. -/
structure Surroundings where
  settings : Settings
  limits : Limits
  store : Store
  /-- The lines that will be typed; a missing one is an interruption. -/
  lines : List (Option String)
  /-- A screen with what will be sent from it, or why there is none. -/
  terminal : Except String (Surface × List TerminalInput)

/-- How a command line ends. -/
structure Finish where
  exitCode : Nat
  output : String
  store : Store
  logLevel : Nat
  frames : List Frame
  /-- Whether a save has run out of room, by which the program was ended. -/
  exhausted : Bool

namespace CommandLine

/-- An end with nothing but output. -/
def finish (s : Surroundings) (logLevel exitCode : Nat) (output : String) : Finish :=
  ⟨exitCode, output, s.store, logLevel, [], false⟩

/-- How many arrays and objects can be open at once while the state is written behind a line of a
session. It is what the stack of the interpreter leaves, which holds a thousand frames; the command to
save is one frame nearer to its start, and would have one place more. A file is read five frames nearer,
so there are files that are read and leave too little room to be written again. -/
def room : Nat := 983

/-- A finished line of output. -/
def outputLine (s : String) : String := s ++ "\n"

/-- How many digits numbers are shown with: as many as asked for, if that is a number above
zero. -/
def precision (s : Surroundings) (r : Request) : Int :=
  match r.precision with
  | some n => if 0 < n then n else s.settings.precision
  | none => s.settings.precision

/-- The log level that is asked for, else the one that is set. -/
def logLevel (s : Surroundings) (r : Request) : Except Fault Nat :=
  Log.levelOf (r.logLevel.getD s.settings.logLevel)

/-- The health check. -/
def checkHealth (s : Surroundings) (logLevel : Nat) : Finish :=
  let checks := Check.all s.limits s.store
  finish s logLevel (if checks.all (·.passed) then 0 else 1)
    (String.join ((Check.report checks).map outputLine))

/-- The text that answers a line. -/
def answerText (json : Bool) (precision : Int) (line : String) (a : Answer) :
    Except Fault String :=
  if json then Json.toText <$> a.toJson line else a.text precision

/-- Evaluates one line among the saved variables. Nothing is saved. -/
def evaluate (s : Surroundings) (r : Request) (logLevel : Nat) (text : String) :
    Except Fault Finish :=
  let line := Text.trim text
  if line = "" ∨ line = "=" then
    .ok (finish s logLevel 1
      (outputLine "Error: Empty input. Please enter a valid expression or assignment."))
  else do
    let state ← s.store.load
    let a := Answer.ofOutcome
      (Outcome.ofLine s.limits.depth state.environment s.limits.domain line)
    let output ← answerText r.json (precision s r) line a
    return finish s logLevel (if a.ok then 0 else 1) (outputLine output)

/-- Removes the saved state. -/
def clear (s : Surroundings) (logLevel : Nat) : Finish :=
  let (result, store) := s.store.reset
  let (exitCode, output) := match result with
    | .ok file => (0, "Removed saved state at " ++ file.text)
    | .error e => (1, "Error: " ++ e.message)
  ⟨exitCode, outputLine output, store, logLevel, [], false⟩

/-- The desk that a session starts at. -/
def desk (s : Surroundings) (session : SessionRequest) : Except Fault Desk := do
  let state ← s.store.load
  return ⟨Session.ofState state, s.store, s.settings.autosave && !session.noSave, s.limits⟩

/-- The start of a session line by line. Images go to the file that is asked for, else to the one that
is set; there is nothing to make them here. -/
def start (s : Surroundings) (r : Request) (session : SessionRequest) (logLevel : Nat)
    (desk : Desk) : Repl :=
  let asked := session.plotFile.getD ""
  { Repl.ofDesk desk (precision s r) logLevel with
    plotFile := if asked = "" then s.settings.plotFile else asked }

/-- A session line by line. -/
def converse (s : Surroundings) (r : Request) (session : SessionRequest) (logLevel : Nat)
    (desk : Desk) : Except Fault Finish :=
  let start := start s r session logLevel desk
  let (lines, exhausted) := start.linesWithin room s.lines
  let (repl, printed) := start.converse lines
  match printed.fault with
  | some fault => .error fault
  | none =>
    .ok ⟨if exhausted then 1 else 0, Repl.banner Settings.version ++ printed.text, repl.desk.store,
      repl.logLevel, [], exhausted⟩

/-- What is said where there is no screen. -/
def noTerminal (reason : String) : String :=
  outputLine ("Error: terminal UI unavailable (" ++ reason ++ "). Try 'rcalc run --plain'.")

/-- A session on the whole screen. -/
def converseOnScreen (s : Surroundings) (r : Request) (logLevel : Nat) (desk : Desk) :
    Except Fault Finish :=
  match s.terminal with
  | .error reason => .ok (finish s logLevel 1 (noTerminal reason))
  | .ok (surface, inputs) => do
    let (inputs, exhausted) := Screen.inputsWithin room desk inputs
    let (frames, desk) ← Screen.converse (precision s r) surface desk inputs
    return ⟨if exhausted then 1 else 0, "", desk.store, logLevel, frames, exhausted⟩

/-- Carries out a request. -/
def serve (s : Surroundings) (r : Request) : Except Fault Finish := do
  let level ← logLevel s r
  match r.task with
  | .version => return finish s level 0 (outputLine Settings.version)
  | .healthCheck => return checkHealth s level
  | .evaluate (some line) => evaluate s r level line
  | .evaluate none => .error .noLine
  | .clear => return clear s level
  | .session session =>
    let desk ← desk s session
    if session.plain then converse s r session level desk else converseOnScreen s r level desk

/-- **Carries out a command line.** Nothing is done for one that is refused. -/
def run (s : Surroundings) (arguments : List String) : Except Fault Finish :=
  match Request.ofArguments arguments with
  | .request r => serve s r
  | .help topic => .ok (finish s Log.warning 0 (String.join (topic.lines.map outputLine)))
  | .refused => .ok (finish s Log.warning 2 "")

end CommandLine

end LineCalc
