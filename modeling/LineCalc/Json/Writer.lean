import LineCalc.Decimal.Numeral
import LineCalc.Json.Basic
import LineCalc.Text.Surrogate
/-!
# LineCalc — writing JSON

The text of a value is ASCII: what lies outside is written by its 16-bit units, four lower-case
hexadecimal digits each, and a stand-in by the surrogate that it stands for. A comma and a colon
are followed by one space. Doubles stand in their stored form, so that a file reads back to the
same numbers.

Not every value has a text that can be stored. A number may be without one (`flaw?`), since it is not
finite or is an integer of too many digits; `isStrict` tells the values whose doubles are finite. And
arrays and objects that stand inside one another are open at once while they are written, each in a
place of its own, and there may be too few places for them (`exhausts`).
-/

namespace LineCalc

namespace Json

/-- One 16-bit unit, by its four hexadecimal digits. -/
def unitText (n : Nat) : List Char :=
  ['\\', 'u', Nat.digitChar (n / 4096 % 16), Nat.digitChar (n / 256 % 16),
    Nat.digitChar (n / 16 % 16), Nat.digitChar (n % 16)]

/-- A character inside a string. -/
def charText (c : Char) : List Char :=
  let n := Text.codePoint c
  if c = '"' then ['\\', '"']
  else if c = '\\' then ['\\', '\\']
  else if 32 ≤ n ∧ n ≤ 126 then [c]
  else if c = '\n' then ['\\', 'n']
  else if c = '\r' then ['\\', 'r']
  else if c = '\t' then ['\\', 't']
  else if n = 8 then ['\\', 'b']
  else if n = 12 then ['\\', 'f']
  else if n < 0x10000 then unitText n
  else
    unitText (0xD800 + (n - 0x10000) / 0x400) ++ unitText (0xDC00 + (n - 0x10000) % 0x400)

/-- A string with its quotes. -/
def stringText (s : String) : List Char :=
  '"' :: s.toList.flatMap charText ++ ['"']

/-- A double. -/
def floatText (x : Float) : List Char :=
  match Double.ofFloat x with
  | .nan => ['N', 'a', 'N']
  | .infinite negative => Layout.sign negative ++ ['I', 'n', 'f', 'i', 'n', 'i', 't', 'y']
  | .finite negative m q => storedDigits negative m q

mutual

/-- The text of a value. -/
def text : Json → List Char
  | null => ['n', 'u', 'l', 'l']
  | bool true => ['t', 'r', 'u', 'e']
  | bool false => ['f', 'a', 'l', 's', 'e']
  | int n => intText n
  | float x => floatText x
  | string s => stringText s
  | array items => '[' :: itemsText items ++ [']']
  | object members => '\x7b' :: membersText members ++ ['\x7d']

/-- The items of an array, without the brackets. -/
def itemsText : List Json → List Char
  | [] => []
  | [v] => v.text
  | v :: w :: rest => v.text ++ ',' :: ' ' :: itemsText (w :: rest)

/-- The members of an object, without the braces. -/
def membersText : List (String × Json) → List Char
  | [] => []
  | [(name, v)] => stringText name ++ ':' :: ' ' :: v.text
  | (name, v) :: w :: rest =>
    stringText name ++ ':' :: ' ' :: v.text ++ ',' :: ' ' :: membersText (w :: rest)

end

mutual

/-- Whether every number in a value is finite. -/
def isStrict : Json → Bool
  | float x => Double.isFinite x
  | array items => itemsStrict items
  | object members => membersStrict members
  | _ => true

/-- Whether every number in the items is finite. -/
def itemsStrict : List Json → Bool
  | [] => true
  | v :: rest => v.isStrict && itemsStrict rest

/-- Whether every number in the members is finite. -/
def membersStrict : List (String × Json) → Bool
  | [] => true
  | (_, v) :: rest => v.isStrict && membersStrict rest

end

/-- Items are strict one by one. -/
theorem itemsStrict_iff {items : List Json} :
    itemsStrict items = true ↔ ∀ v ∈ items, v.isStrict = true := by
  induction items with
  | nil => simp [itemsStrict]
  | cons v rest ih => simp [itemsStrict, ih]

/-- Members are strict one by one. -/
theorem membersStrict_iff {members : List (String × Json)} :
    membersStrict members = true ↔ ∀ m ∈ members, m.2.isStrict = true := by
  induction members with
  | nil => simp [membersStrict]
  | cons m rest ih => simp [membersStrict, ih]

/-! ## What cannot be stored -/

/-- What a number lacks a text for. -/
inductive Flaw where
  /-- It is not finite. -/
  | notFinite
  /-- It is an integer of more digits than are written. -/
  | integerTooLong
deriving DecidableEq

mutual

/-- What the first number in a value lacks that has no text. -/
def flaw? : Json → Option Flaw
  | int n =>
    if Numeral.maxDigits < (Layout.digits n.natAbs).length then some .integerTooLong else none
  | float x => if Double.isFinite x then none else some .notFinite
  | array items => itemsFlaw? items
  | object members => membersFlaw? members
  | _ => none

/-- What the first number in the items lacks that has no text. -/
def itemsFlaw? : List Json → Option Flaw
  | [] => none
  | v :: rest => v.flaw?.or (itemsFlaw? rest)

/-- What the first number in the members lacks that has no text. -/
def membersFlaw? : List (String × Json) → Option Flaw
  | [] => none
  | (_, v) :: rest => v.flaw?.or (membersFlaw? rest)

end

mutual

/-- How many arrays and objects of a value are open at once, where most of them are. -/
def nesting : Json → Nat
  | array items => itemsNesting items + 1
  | object members => membersNesting members + 1
  | _ => 0

/-- How many are open at once in the items. -/
def itemsNesting : List Json → Nat
  | [] => 0
  | v :: rest => max v.nesting (itemsNesting rest)

/-- How many are open at once in the members. -/
def membersNesting : List (String × Json) → Nat
  | [] => 0
  | (_, v) :: rest => max v.nesting (membersNesting rest)

end

mutual

/-- Whether the writing of a value runs out of room, before it meets a number without a text. The room
is the number of places for open arrays and objects; an empty one takes a place as well. -/
def exhausts (room : Nat) : Json → Bool
  | array items =>
    match room with
    | 0 => true
    | room + 1 => itemsExhaust room items
  | object members =>
    match room with
    | 0 => true
    | room + 1 => membersExhaust room members
  | _ => false

/-- Whether the writing of the items runs out of room. -/
def itemsExhaust (room : Nat) : List Json → Bool
  | [] => false
  | v :: rest => v.exhausts room || v.flaw?.isNone && itemsExhaust room rest

/-- Whether the writing of the members runs out of room. -/
def membersExhaust (room : Nat) : List (String × Json) → Bool
  | [] => false
  | (_, v) :: rest => v.exhausts room || v.flaw?.isNone && membersExhaust room rest

end

/-- The text of a value, as a string. -/
def toText (v : Json) : String :=
  String.ofList v.text

end Json

end LineCalc
