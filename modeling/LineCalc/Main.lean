import LineCalc.CommandLine.Run
/-!
# LineCalc — the program

Looks up the environment and the state file, hands them to `CommandLine.run`, prints what comes of
it, and puts the state file into the condition that the store was left in. A session line by line
is the one thing that cannot be handed over whole, since its lines are typed one after the other;
there each line is processed and its outcome printed and saved before the next one is read.
-/

namespace LineCalc

namespace Program

/-- The environment variables that hold settings. -/
def environment : IO (List (String × String)) :=
  Settings.names.filterMapM fun name => do
    let key := Settings.variableName name
    return (← IO.getEnv key).map fun value => (key, value)

/-- Whether a number of a system error, which may come with either sign, says that a directory
stands where a file was wanted. -/
def meansDirectory (number : UInt32) : Bool :=
  number == 21 || number == 0 - 21

/-- The condition of the store. A system error that tells nothing more is taken for a missing
file. -/
def lookUp (directory : Path) : IO Store := do
  try
    let bytes ← IO.FS.readBinFile directory.stateFile.text
    return .folder directory (.file bytes.toList)
  catch e =>
    match e with
    | .inappropriateType _ number _ =>
      return if meansDirectory number then .folder directory .directory else .blocked directory
    | _ => return .folder directory .missing

/-- Puts the state file into the condition of `after`, if it is another than that of `before`. -/
def putBack (before after : Store) : IO Unit := do
  if before = after then return
  match after with
  | .folder directory (.file bytes) =>
    IO.FS.createDirAll directory.text
    IO.FS.writeBinFile directory.stateFile.text ⟨bytes.toArray⟩
  | .folder directory .missing => IO.FS.removeFile directory.stateFile.text
  | _ => return

/-- The wording of a fault. -/
def wording : Fault → String
  | .badPrecision => "numbers cannot be shown with this precision"
  | .noResult => "there is no result to show"
  | .noLabel => "there is no name for the samples"
  | .labelNotText => "the name of the samples is not a text"
  | .notText => "the state file is not a text"
  | .numberTooLarge => "the state file holds a number that is too large"
  | .integerTooLong => "the state file holds an integer that is too long"
  | .noLine => "there is no line to evaluate"
  | .formatAsLevel => "the name of the line format is no log level"
  | .stylesAsLevel => "the name of the styles is no log level"

/-- Prints why the program cannot go on. -/
def fail (reason : String) : IO UInt32 := do
  IO.eprintln ("Error: " ++ reason)
  return 1

/-- A line of text without the line feed that ends it. -/
def withoutLineFeed (s : String) : String :=
  let cs := s.toList
  String.ofList (if cs.getLast? = some '\n' then cs.dropLast else cs)

/-- A session line by line. -/
partial def converse (r : Repl) : IO UInt32 := do
  let output ← IO.getStdout
  output.putStr r.prompt
  output.flush
  let line ← (← IO.getStdin).getLine
  if line.isEmpty then return 0
  if r.exhausts CommandLine.room (withoutLineFeed line) then
    return ← fail "there is not enough room to save a state of so many levels"
  let (r', printed) := r.process (withoutLineFeed line)
  output.putStr printed.text
  putBack r.desk.store r'.desk.store
  match printed.fault with
  | some fault => fail (wording fault)
  | none => if r'.running then converse r' else return 0

/-- A command line whose outcome does not depend on what is typed. -/
def carryOut (s : Surroundings) (arguments : List String) : IO UInt32 :=
  match CommandLine.run s arguments with
  | .error fault => fail (wording fault)
  | .ok f => do
    IO.print f.output
    putBack s.store f.store
    if f.exitCode = 2 then HelpTopic.whole.usage.forM IO.eprintln
    return f.exitCode.toUInt32

/-- A session line by line from its start. -/
def start (s : Surroundings) (r : Request) (session : SessionRequest) : IO UInt32 :=
  let prepared := do
    let level ← CommandLine.logLevel s r
    return CommandLine.start s r session level (← CommandLine.desk s session)
  match prepared with
  | .error fault => fail (wording fault)
  | .ok repl => do
    IO.print (Repl.banner Settings.version)
    converse repl

/-- The program among its settings. -/
def run (settings : Settings) (limits : Limits) (arguments : List String) : IO UInt32 := do
  let store ← match Path.stateDirectory? settings.stateDirectory (← IO.getEnv "HOME") with
    | some directory => lookUp directory
    | none => pure .homeless
  let s : Surroundings := ⟨settings, limits, store, [], .error "no screen"⟩
  match Request.ofArguments arguments with
  | .request r =>
    match r.task with
    | .session session => if session.plain then start s r session else carryOut s arguments
    | _ => carryOut s arguments
  | _ => carryOut s arguments

/-- The program from its arguments. -/
def ofArguments (arguments : List String) : IO UInt32 := do
  let pairs ← environment
  match Settings.ofEnvironment? (pairs.lookup ·) with
  | none => fail "a setting is not a number"
  | some settings =>
    match settings.limits with
    | .error e => fail e.message
    | .ok limits => run settings limits arguments

end Program

end LineCalc

/-- The program. -/
def main (arguments : List String) : IO UInt32 :=
  LineCalc.Program.ofArguments arguments
