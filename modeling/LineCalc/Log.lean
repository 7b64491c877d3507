import LineCalc.Error
import LineCalc.Text.Surrogate
/-!
# LineCalc — logging

Records carry a level, and go to the log if their level is not below the one that is set. Loggers
have dotted names below one root; a name that does not begin with the root's is put below it. Only
loggers at or below the root write to its log.

A level is set by its name, in any case. Two names belong to other things of the log, and to set
one of them as a level is a fault; any name that means nothing sets the level `warning`.
-/

namespace LineCalc

namespace Log

/-- The name of the root logger. -/
def root : String := "rcalc_pkg"

/-- The level that is set where none is given, or none has the name given. -/
def warning : Nat := 30

/-- The level at which everything is told. -/
def debug : Nat := 10

/-- The names of levels. Level zero sets nothing. -/
def levels : List (String × Nat) :=
  [("CRITICAL", 50), ("FATAL", 50), ("ERROR", 40), ("WARNING", 30), ("WARN", 30), ("INFO", 20),
    ("DEBUG", 10), ("NOTSET", 0)]

/-- The names of other things of the log, with what they do where a level belongs. -/
def taken : List (String × Fault) :=
  [("BASIC_FORMAT", .formatAsLevel), ("_STYLES", .stylesAsLevel)]

/-- The letters past ASCII whose capitals lie inside it. -/
def outerCapitals : List (Char × String) :=
  [('ß', "SS"), ('ı', "I"), ('ſ', "S"), ('ﬀ', "FF"), ('ﬁ', "FI"), ('ﬂ', "FL"), ('ﬃ', "FFI"),
    ('ﬄ', "FFL"), ('ﬅ', "ST"), ('ﬆ', "ST")]

/-- The capitals of a letter. What has none in ASCII is left alone, since no name holds it. -/
def capitals (c : Char) : List Char :=
  match outerCapitals.lookup c with
  | some cs => cs.toList
  | none => [c.toUpper]

/-- **The level of a name**, in capitals or not. -/
def levelOf (name : String) : Except Fault Nat :=
  let name := String.ofList (name.toList.flatMap capitals)
  match taken.lookup name with
  | some fault => .error fault
  | none => .ok ((levels.lookup name).getD warning)

/-- The name that a level is shown by. -/
def nameOf (level : Nat) : String :=
  match levels.find? fun l => l.2 == level with
  | some l => l.1
  | none => "Level " ++ toString level

/-- The level that a setting gives: its own, or the default where it is empty. -/
def levelOfSetting (setting : Option String) (default : String) : Except Fault Nat :=
  match setting with
  | none => levelOf default
  | some s => levelOf (if s = "" then default else s)

/-- The full name of a logger. -/
def qualify (name : String) : String :=
  if root.toList.isPrefixOf name.toList then name else root ++ "." ++ name

/-- Whether a logger of a full name writes to the root's log. -/
def isBelowRoot (name : String) : Bool :=
  name == root || (root ++ ".").toList.isPrefixOf name.toList

/-- Whether a record of a level is written at the level that is set. -/
def isWritten (setLevel level : Nat) : Bool :=
  level != 0 && (if setLevel = 0 then warning else setLevel) ≤ level

/-- A record as it is written, its time aside. -/
def recordText (name : String) (level : Nat) (message : String) : String :=
  nameOf level ++ " " ++ name ++ ": " ++ message

/-- **What the records of one logger leave in the log.** One that cannot be encoded leaves
nothing. -/
def written (setLevel : Nat) (name : String) (records : List (Nat × String)) : List String :=
  if isBelowRoot name then
    ((records.filter fun r => isWritten setLevel r.1).map fun r => recordText name r.1 r.2).filter
      fun line => !Text.holdsSurrogate line
  else []

end Log

end LineCalc
