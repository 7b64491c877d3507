import LineCalc.CommandLine.Arguments
import LineCalc.CommandLine.Help
/-!
# LineCalc — what is asked for on the command line

A `Request` is a command line understood: a line to evaluate, a session to start, a state to
remove, and how to go about it. Of an option that is given twice the later counts, and one whose
text is left out is taken back to where it was without it, but for the line to evaluate, which is
missing then. A command line that asks for help asks for nothing else, and one with anything in it
that has no meaning is refused as a whole.
-/

namespace LineCalc

/-- How a session is to be run. -/
structure SessionRequest where
  /-- Line by line, and not on the whole screen. -/
  plain : Bool
  noSave : Bool
  plotFile : Option String

/-- What to do where no other wish goes before. -/
inductive Verb where
  | clear
  | session (request : SessionRequest)

/-- A command line understood. -/
structure Request where
  /-- Whether a line is to be evaluated, and the line unless it was left out. -/
  line : Option (Option String)
  /-- Whether its answer is written as JSON. -/
  json : Bool
  precision : Option Int
  version : Bool
  logLevel : Option String
  logFile : Option String
  healthCheck : Bool
  verb : Verb

/-- The one thing that a request comes to. -/
inductive Task where
  | version
  | healthCheck
  | evaluate (line : Option String)
  | clear
  | session (request : SessionRequest)

/-- What a command line comes to. -/
inductive Asked where
  | request (r : Request)
  | help (topic : HelpTopic)
  | refused

namespace SessionRequest

/-- The options of a session. -/
inductive Wish where
  | help
  | plain
  | noSave
  | plotFile

/-- Their names. -/
def switches : List (Switch Wish) :=
  [⟨.help, ["-h", "--help"], false⟩, ⟨.plain, ["--plain"], false⟩,
    ⟨.noSave, ["--no-save"], false⟩, ⟨.plotFile, ["--plot-file"], true⟩]

/-- Nothing wished for. -/
def initial : SessionRequest := ⟨false, false, none⟩

end SessionRequest

namespace Request

/-- The options before a verb. -/
inductive Wish where
  | help
  | eval
  | format
  | precision
  | version
  | logLevel
  | logFile
  | healthCheck

/-- Their names. -/
def switches : List (Switch Wish) :=
  [⟨.help, ["-h", "--help"], false⟩, ⟨.eval, ["-e", "--eval"], true⟩,
    ⟨.format, ["--format"], true⟩, ⟨.precision, ["-p", "--precision"], true⟩,
    ⟨.version, ["-v", "--version"], false⟩, ⟨.logLevel, ["--log-level"], true⟩,
    ⟨.logFile, ["--log-file"], true⟩, ⟨.healthCheck, ["--health-check"], false⟩]

/-- Nothing wished for: a session on the screen. -/
def initial : Request :=
  ⟨none, false, none, false, none, none, false, .session SessionRequest.initial⟩

/-- **The one thing to do.** The version goes before the health check, the check before a line to
evaluate, and the verb comes last. -/
def task (r : Request) : Task :=
  if r.version then .version
  else if r.healthCheck then .healthCheck
  else
    match r.line, r.verb with
    | some line, _ => .evaluate line
    | none, .clear => .clear
    | none, .session session => .session session

/-- The levels that can be asked for. -/
def logLevels : List String := ["DEBUG", "INFO", "WARNING", "ERROR"]

/-- Takes a wish with its text, if the text is one for this wish. -/
def withText? (r : Request) (text : String) : Wish → Option Request
  | .eval => some { r with line := some (some text) }
  | .format =>
    if text = "json" then some { r with json := true }
    else if text = "human" then some { r with json := false }
    else none
  | .precision => do return { r with precision := some (← Numeral.int? text) }
  | .logLevel => if text ∈ logLevels then some { r with logLevel := some text } else none
  | .logFile => some { r with logFile := some text }
  | _ => none

/-- Takes a wish whose text was left out. -/
def withoutText (r : Request) : Wish → Request
  | .eval => { r with line := some none }
  | .format => { r with json := false }
  | .precision => { r with precision := none }
  | .logLevel => { r with logLevel := none }
  | .logFile => { r with logFile := none }
  | _ => r

/-- Takes the items behind the word that starts a session. A word is as much of a stranger there as
an option without a meaning; `strange` tells that there was one. -/
def withSession (r : Request) (s : SessionRequest) (strange : Bool) :
    List (Arguments.Item SessionRequest.Wish) → Asked
  | [] => if strange then .refused else .request { r with verb := .session s }
  | .switch .help :: _ => .help .session
  | .switch .plain :: rest => withSession r { s with plain := true } strange rest
  | .switch .noSave :: rest => withSession r { s with noSave := true } strange rest
  | .text .plotFile text :: rest => withSession r { s with plotFile := text } strange rest
  | .word _ _ :: rest => withSession r s true rest
  | .stranger :: rest => withSession r s true rest
  | _ :: _ => .refused

/-- Takes the items behind the word that removes the state. There is no option but that for
help. -/
def withClear (r : Request) (strange : Bool) : List (Arguments.Item Unit) → Asked
  | [] => if strange then .refused else .request { r with verb := .clear }
  | .switch () :: _ => .help .clear
  | .word _ _ :: rest => withClear r true rest
  | .stranger :: rest => withClear r true rest
  | _ :: _ => .refused

/-- Takes a verb with the arguments behind it. -/
def withVerb (r : Request) (strange : Bool) (verb : String) (behind : List String) : Asked :=
  if verb = "run" then
    withSession r SessionRequest.initial strange (Arguments.read SessionRequest.switches behind)
  else if verb = "clear" then
    withClear r strange (Arguments.read [⟨(), ["-h", "--help"], false⟩] behind)
  else .refused

/-- Takes the items of a whole command line. -/
def withItems (r : Request) (strange : Bool) : List (Arguments.Item Wish) → Asked
  | [] => if strange then .refused else .request r
  | .switch .help :: _ => .help .whole
  | .switch .version :: rest => withItems { r with version := true } strange rest
  | .switch .healthCheck :: rest => withItems { r with healthCheck := true } strange rest
  | .text wish none :: rest => withItems (r.withoutText wish) strange rest
  | .text wish (some text) :: rest =>
    match r.withText? text wish with
    | some r => withItems r strange rest
    | none => .refused
  | .word verb behind :: _ => withVerb r strange verb behind
  | .stranger :: rest => withItems r true rest
  | _ :: _ => .refused

/-- **What a command line asks for.** -/
def ofArguments (arguments : List String) : Asked :=
  withItems initial false (Arguments.read switches arguments)

end Request

end LineCalc
