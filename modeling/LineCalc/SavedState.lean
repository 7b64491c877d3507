import LineCalc.Decimal.Numeral
import LineCalc.Entries
import LineCalc.Environment
import LineCalc.Json.Display
/-!
# LineCalc — what is saved of a session

A `SavedState` is the history, the variables, and the samples of the last plot. An entry of the
history is a submitted line with what came of it: a result, an error, or the name it was plotted over.
A session records exactly one of the three. A state file may hold more than one, and in the places of
the error and the name any value but null, so those two are kept as JSON values.

`toJson` and `ofJson` are the form of a state in its file:

    {"history": [{"expression": "1+1", "result": 2.0, "error": null}],
     "variables": {"x": {"expression": "x=2+3", "value": 5.0}},
     "plot_data": [[0.0, 1.0], [1.0, 8.0]]}

Reading is lenient where a meaning can be found: a field that is missing, null, zero or empty holds
nothing, what is to be text is shown as text, and a number may be written as text. A `Defect` says
why a value has no such meaning.
-/

namespace LineCalc

/-- A submitted line and what came of it. -/
structure HistoryEntry where
  expression : String
  result : Option Float
  error : Option Json
  plotName : Option Json

namespace HistoryEntry

/-- A line with a value. -/
def ofResult (expression : String) (x : Float) : HistoryEntry :=
  ⟨expression, some x, none, none⟩

/-- A line with an error. -/
def ofError (expression message : String) : HistoryEntry :=
  ⟨expression, none, some (.string message), none⟩

/-- A line that was plotted. -/
def ofPlot (expression name : String) : HistoryEntry :=
  ⟨expression, none, none, some (.string name)⟩

/-- Whether there was no error. -/
def ok (e : HistoryEntry) : Bool :=
  e.error.isNone

/-- Whether nothing came of the line. -/
def isVoid (e : HistoryEntry) : Bool :=
  e.result.isNone && e.error.isNone && e.plotName.isNone

end HistoryEntry

/-- What a state file holds. -/
structure SavedState where
  history : List HistoryEntry
  environment : Environment Float
  plot : Option (List (Float × Float))

/-- Why a JSON value is no saved state. -/
inductive Defect where
  /-- A definition lacks a field. -/
  | missingField (name : String)
  /-- A value other than an object stands for the variables or for an entry of the history. -/
  | notObject
  /-- A value other than an object stands for a definition. -/
  | notDefinition
  /-- A value without elements stands for a list. -/
  | notList
  /-- A sample does not have two parts. -/
  | notPair
  /-- A value without a number stands for a number. -/
  | notNumber
  /-- A text stands for a number, and spells none. -/
  | unreadableNumber
  /-- An integer is past the largest double. -/
  | numberTooLarge
  /-- Nothing came of a line of the history. -/
  | noOutcome (expression : String)
deriving DecidableEq

namespace Defect

/-- The wording of a defect. -/
def message : Defect → String
  | missingField name => Text.quoted name
  | notObject => "not an object"
  | notDefinition => "not a definition"
  | notList => "not a list"
  | notPair => "not a pair"
  | notNumber => "not a number"
  | unreadableNumber => "no number in a text"
  | numberTooLarge => "integer too large for a double"
  | noOutcome expression =>
    "History entry " ++ Text.quoted expression ++ " has no result, error or plot"

end Defect

/-! ## Values -/

namespace Json

/-- The double that a value holds: a number, a truth value as one or zero, or a text that spells a
number. -/
def toFloat : Json → Except Defect Float
  | bool b => .ok (Double.nearest false (if b then 1 else 0) 1)
  | int n =>
    match Numeral.floatOfInt? n with
    | some x => .ok x
    | none => .error .numberTooLarge
  | float x => .ok x
  | string s =>
    match Numeral.float? s with
    | some x => .ok x
    | none => .error .unreadableNumber
  | _ => .error .notNumber

/-- The parts of a value: items, names of members, or characters. -/
def elements : Json → Except Defect (List Json)
  | array items => .ok items
  | object members => .ok (members.map fun m => .string m.1)
  | string s => .ok (s.toList.map fun c => .string (String.singleton c))
  | _ => .error .notList

/-- The two parts of a value. -/
def pair (v : Json) : Except Defect (Json × Json) := do
  match ← v.elements with
  | [a, b] => return (a, b)
  | _ => .error .notPair

/-- The member under a name, if it is there and not null. -/
def member? (name : String) (members : List (String × Json)) : Option Json :=
  match Entries.find? name members with
  | some null => none
  | v => v

end Json

/-! ## Entries of the history -/

namespace HistoryEntry

/-- An entry as a JSON value. -/
def toJson (e : HistoryEntry) : Json :=
  let members := [("expression", Json.string e.expression),
    ("result", Json.ofOption Json.ofFloat e.result), ("error", Json.ofOption id e.error)]
  match e.plotName with
  | none => .object members
  | some name => .object (members ++ [("plot_variable", name)])

/-- The entry that the members of an object make. Something must have come of the line. -/
def ofMembers (members : List (String × Json)) : Except Defect HistoryEntry := do
  let expression := match Entries.find? "expression" members with
    | some v => v.display
    | none => ""
  let result ← match Json.member? "result" members with
    | some v => some <$> v.toFloat
    | none => pure none
  let e : HistoryEntry :=
    ⟨expression, result, Json.member? "error" members, Json.member? "plot_variable" members⟩
  if e.isVoid then .error (.noOutcome expression) else return e

/-- The entry that a value holds. -/
def ofJson : Json → Except Defect HistoryEntry
  | .object members => ofMembers members
  | _ => .error .notObject

end HistoryEntry

/-! ## Definitions -/

namespace Definition

/-- A definition as a JSON value. -/
def toJson (d : Definition Float) : Json :=
  .object [("expression", .string d.expression), ("value", Json.ofFloat d.value)]

/-- The definition that the members of an object make. -/
def ofMembers (members : List (String × Json)) : Except Defect (Definition Float) :=
  match Entries.find? "expression" members, Entries.find? "value" members with
  | some expression, some value => do return ⟨expression.display, ← value.toFloat⟩
  | none, _ => .error (.missingField "expression")
  | _, none => .error (.missingField "value")

/-- The definition that a value holds. -/
def ofJson : Json → Except Defect (Definition Float)
  | .object members => ofMembers members
  | _ => .error .notDefinition

/-- A member of a definition given as a pair, if its name is a text; lists and objects are no
names. -/
def memberOfPair (v : Json) : Except Defect (List (String × Json)) := do
  match ← v.elements with
  | [.string name, w] => return [(name, w)]
  | [.array _, _] => .error .notDefinition
  | [.object _, _] => .error .notDefinition
  | [_, _] => return []
  | _ => .error .notPair

/-- The members of a definition, which may be written as an object or as a list of pairs. -/
def members : Json → Except Defect (List (String × Json))
  | .object ms => .ok ms
  | .array items => do return Entries.ofList (← items.mapM memberOfPair).flatten
  | .string s => if s = "" then .ok [] else .error .notPair
  | _ => .error .notDefinition

end Definition

namespace Environment

/-- Variables as a JSON value. -/
def toJson (env : Environment Float) : Json :=
  .object (env.entries.map fun e => (e.1, e.2.toJson))

/-- The variables that a value holds, each definition written as an object or as pairs. -/
def ofJson : Json → Except Defect (Environment Float)
  | .object entries => do
    return ofList (← entries.mapM fun e => do
      return (e.1, ← Definition.ofMembers (← Definition.members e.2)))
  | _ => .error .notObject

end Environment

/-! ## The whole state -/

namespace SavedState

/-- Nothing saved. -/
def empty : SavedState := ⟨[], Environment.empty, none⟩

/-- **A saved state as a JSON value.** -/
def toJson (s : SavedState) : Json :=
  .object [("history", .array (s.history.map HistoryEntry.toJson)),
    ("variables", s.environment.toJson),
    ("plot_data", Json.ofOption (fun samples => .array (samples.map Json.ofSample)) s.plot)]

/-- The history that the members of an object hold. -/
def historyOf (members : List (String × Json)) : Except Defect (List HistoryEntry) :=
  match Entries.find? "history" members with
  | none => .ok []
  | some v => if v.isBlank then .ok [] else do (← v.elements).mapM HistoryEntry.ofJson

/-- The variables that the members of an object hold. -/
def environmentOf (members : List (String × Json)) : Except Defect (Environment Float) :=
  match Entries.find? "variables" members with
  | none => .ok Environment.empty
  | some v =>
    if v.isBlank then .ok Environment.empty
    else
      match v with
      | .object entries => do
        return Environment.ofList (← entries.mapM fun e => do return (e.1, ← Definition.ofJson e.2))
      | _ => .error .notObject

/-- The sample that a value holds. -/
def sampleOf (v : Json) : Except Defect (Float × Float) := do
  let (x, y) ← v.pair
  return (← x.toFloat, ← y.toFloat)

/-- The samples that the members of an object hold. -/
def plotOf (members : List (String × Json)) : Except Defect (Option (List (Float × Float))) :=
  match Json.member? "plot_data" members with
  | none => .ok none
  | some v => do return some (← (← v.elements).mapM sampleOf)

/-- **The saved state that the members of an object make.** -/
def ofMembers (members : List (String × Json)) : Except Defect SavedState := do
  return ⟨← historyOf members, ← environmentOf members, ← plotOf members⟩

end SavedState

end LineCalc
