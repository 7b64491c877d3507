import LineCalc.Json.Writer
import LineCalc.Text.CharClass
/-!
# LineCalc — a JSON value as plain text

A text inside a message or a list is shown between quotes, so that its ends and its blanks can be
seen. Single quotes are the rule; a text that holds a single quote and no double one gets double
quotes. What cannot be shown is written by its code, in two, four or eight hexadecimal digits.

Where a field is meant to be text and a file holds something else, the value's own plain text
stands in: a string as it is, the words `None`, `True` and `False`, numbers in their stored form,
lists and tables in brackets with the strings inside them quoted.
-/

namespace LineCalc

namespace Text

/-- The lower `count` hexadecimal digits of `n`. -/
def hexDigits : (count n : Nat) → List Char
  | 0, _ => []
  | count + 1, n => hexDigits count (n / 16) ++ [Nat.digitChar (n % 16)]

/-- A character between the quotes `quote`. -/
def quotedChar (quote c : Char) : List Char :=
  if c = quote ∨ c = '\\' then ['\\', c]
  else if c = '\n' then ['\\', 'n']
  else if c = '\r' then ['\\', 'r']
  else if c = '\t' then ['\\', 't']
  else if isPrintable c then [c]
  else
    let n := codePoint c
    if n < 0x100 then '\\' :: 'x' :: hexDigits 2 n
    else if n < 0x10000 then '\\' :: 'u' :: hexDigits 4 n
    else '\\' :: 'U' :: hexDigits 8 n

/-- A text between quotes. -/
def quoted (s : String) : String :=
  let cs := s.toList
  let quote := if '\'' ∈ cs ∧ '"' ∉ cs then '"' else '\''
  String.ofList (quote :: cs.flatMap (quotedChar quote) ++ [quote])

end Text

namespace Json

/-- A double in plain text. -/
def floatDisplay (x : Float) : String :=
  match Double.ofFloat x with
  | .nan => "nan"
  | .infinite negative => String.ofList (Layout.sign negative ++ ['i', 'n', 'f'])
  | .finite negative m q => String.ofList (storedDigits negative m q)

mutual

/-- A value inside a list or a table. -/
def displayInner : Json → String
  | null => "None"
  | bool true => "True"
  | bool false => "False"
  | int n => String.ofList (intText n)
  | float x => floatDisplay x
  | string s => Text.quoted s
  | array items => "[" ++ displayItems items ++ "]"
  | object members => "\x7b" ++ displayMembers members ++ "\x7d"

/-- The items of a list. -/
def displayItems : List Json → String
  | [] => ""
  | [v] => displayInner v
  | v :: w :: rest => displayInner v ++ ", " ++ displayItems (w :: rest)

/-- The members of a table. -/
def displayMembers : List (String × Json) → String
  | [] => ""
  | [(name, v)] => Text.quoted name ++ ": " ++ displayInner v
  | (name, v) :: w :: rest =>
    Text.quoted name ++ ": " ++ displayInner v ++ ", " ++ displayMembers (w :: rest)

end

/-- The plain text of a value. -/
def display : Json → String
  | string s => s
  | v => displayInner v

end Json

end LineCalc
