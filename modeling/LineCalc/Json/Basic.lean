import LineCalc.Decimal.Layout
/-!
# LineCalc — JSON values

A `Json` value is what a state file, or an answer of the command line, is made of. Integers and
doubles are told apart: an integer keeps all its digits until a double is wanted. The members of an
object stand in their order, each name once.
-/

namespace LineCalc

/-- A JSON value. -/
inductive Json where
  | null
  | bool (b : Bool)
  | int (n : Int)
  | float (x : Float)
  | string (s : String)
  | array (items : List Json)
  | object (members : List (String × Json))

namespace Json

/-- A value that stands for nothing given: it is empty, zero or false. -/
def isBlank : Json → Bool
  | null => true
  | bool b => !b
  | int n => n == 0
  | float x =>
    match Double.ofFloat x with
    | .finite _ m _ => m == 0
    | _ => false
  | string s => s == ""
  | array items => items.isEmpty
  | object members => members.isEmpty

/-- A double as a value with a stored form: what is not finite is a word. -/
def ofFloat (x : Float) : Json :=
  match Double.ofFloat x with
  | .nan => .string "nan"
  | .infinite false => .string "inf"
  | .infinite true => .string "-inf"
  | .finite _ _ _ => .float x

/-- A value that may be missing. -/
def ofOption {α : Type} (f : α → Json) : Option α → Json
  | none => .null
  | some a => f a

/-- A sample as a value: its two numbers. -/
def ofSample (s : Float × Float) : Json :=
  .array [ofFloat s.1, ofFloat s.2]

/-- The digits of an integer. -/
def intText (n : Int) : List Char :=
  Layout.sign (n < 0) ++ Layout.digits n.natAbs

end Json

end LineCalc
