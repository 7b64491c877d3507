import LineCalc.Json.Basic
import LineCalc.Entries
import LineCalc.Decimal.Numeral
import LineCalc.Text.Surrogate
/-!
# LineCalc — reading JSON

The reader takes one value, blanks around it, and nothing else. It refuses control characters
inside strings, and takes the words `NaN`, `Infinity` and `-Infinity` for numbers. Of two members
under one name the later wins, at the place of the first. An escaped surrogate without the other
half of its pair is read as its stand-in.
-/

namespace LineCalc

namespace Json

/-- Why a text is no value: its form, or an integer of more digits than are read. -/
inductive Refusal where
  | malformed
  | integerTooLong
deriving DecidableEq

/-- Blanks between the tokens of a value. -/
def isSpace (c : Char) : Bool :=
  c = ' ' || c = '\t' || c = '\n' || c = '\r'

/-- What follows the blanks. -/
def skip (cs : List Char) : List Char :=
  cs.dropWhile isSpace

/-- The value of a hexadecimal digit. -/
def hexValue? (c : Char) : Option Nat :=
  if Text.isAsciiDigit c then some (c.toNat - 48)
  else if 'a' ≤ c ∧ c ≤ 'f' then some (c.toNat - 87)
  else if 'A' ≤ c ∧ c ≤ 'F' then some (c.toNat - 55)
  else none

/-- The 16-bit unit that four hexadecimal digits spell. -/
def hexUnit? (a b c d : Char) : Option Nat := do
  return (((← hexValue? a) * 16 + (← hexValue? b)) * 16 + (← hexValue? c)) * 16 + (← hexValue? d)

/-- The character that a letter stands for after a backslash. -/
def unescape? (c : Char) : Option Char :=
  if c = '"' ∨ c = '\\' ∨ c = '/' then some c
  else if c = 'b' then some '\x08'
  else if c = 'f' then some '\x0c'
  else if c = 'n' then some '\n'
  else if c = 'r' then some '\r'
  else if c = 't' then some '\t'
  else none

/-- A piece of a string: a character, or a 16-bit unit that was escaped. -/
inductive Piece where
  | char (c : Char)
  | unit (n : Nat)

/-- The pieces of a string up to its closing quote, and what follows. -/
def pieces? : List Char → Option (List Piece × List Char)
  | [] => none
  | '"' :: rest => some ([], rest)
  | '\\' :: 'u' :: a :: b :: c :: d :: rest => do
    let n ← hexUnit? a b c d
    let (ps, rest) ← pieces? rest
    some (.unit n :: ps, rest)
  | '\\' :: e :: rest => do
    let c ← unescape? e
    let (ps, rest) ← pieces? rest
    some (.char c :: ps, rest)
  | c :: rest =>
    if c.toNat < 32 ∨ c = '\\' then none
    else do
      let (ps, rest) ← pieces? rest
      some (.char c :: ps, rest)

/-- The text of the pieces: a first and a second half in a row make one character. -/
def joinPieces : List Piece → List Char
  | [] => []
  | .char c :: rest => c :: joinPieces rest
  | .unit n :: .unit m :: rest =>
    if Text.isHighSurrogate n && Text.isLowSurrogate m then
      Char.ofNat (Text.pairCode n m) :: joinPieces rest
    else Text.ofUnit n :: joinPieces (.unit m :: rest)
  | .unit n :: rest => Text.ofUnit n :: joinPieces rest

/-- A string after its opening quote, and what follows it. -/
def readString (cs : List Char) : Except Refusal (String × List Char) :=
  match pieces? cs with
  | some (ps, rest) => .ok (String.ofList (joinPieces ps), rest)
  | none => .error .malformed

/-- The digits of a whole number: a single zero, or digits that start with none. -/
def splitWhole : List Char → List Char × List Char
  | '0' :: rest => (['0'], rest)
  | cs => Numeral.splitDigits cs

/-- A point with the digits after it; a point with no digit is left alone. -/
def splitPoint : List Char → List Char × List Char
  | '.' :: cs =>
    let (ds, rest) := Numeral.splitDigits cs
    if ds.isEmpty then ([], '.' :: cs) else (ds, rest)
  | cs => ([], cs)

/-- An exponent, if there is one with a digit in it. -/
def splitPower (cs : List Char) : Option Int × List Char :=
  match cs with
  | [] => (none, cs)
  | c :: _ =>
    if c = 'e' ∨ c = 'E' then
      match Numeral.splitExponent cs with
      | some (n, rest) => (some n, rest)
      | none => (none, cs)
    else (none, cs)

/-- A number, its sign taken off. An integer has neither a fraction nor an exponent. -/
def readNumber (negative : Bool) (cs : List Char) : Except Refusal (Json × List Char) :=
  let (whole, rest) := splitWhole cs
  if whole.isEmpty then .error .malformed
  else
    let (fraction, rest) := splitPoint rest
    let (power, rest) := splitPower rest
    if fraction.isEmpty && power.isNone then
      if Numeral.maxDigits < whole.length then .error .integerTooLong
      else
        let n : Int := Numeral.natOf whole
        .ok (.int (if negative then -n else n), rest)
    else
      .ok (.float (Decimal.toFloat negative (Numeral.decimal whole fraction (power.getD 0))), rest)

/-- A word or a number. -/
def readPlain : List Char → Except Refusal (Json × List Char)
  | 'n' :: 'u' :: 'l' :: 'l' :: rest => .ok (.null, rest)
  | 't' :: 'r' :: 'u' :: 'e' :: rest => .ok (.bool true, rest)
  | 'f' :: 'a' :: 'l' :: 's' :: 'e' :: rest => .ok (.bool false, rest)
  | 'N' :: 'a' :: 'N' :: rest => .ok (.float (Double.signed false Numeral.nanBits), rest)
  | 'I' :: 'n' :: 'f' :: 'i' :: 'n' :: 'i' :: 't' :: 'y' :: rest =>
    .ok (.float (Double.signed false Double.infinityBits), rest)
  | '-' :: 'I' :: 'n' :: 'f' :: 'i' :: 'n' :: 'i' :: 't' :: 'y' :: rest =>
    .ok (.float (Double.signed true Double.infinityBits), rest)
  | '-' :: rest => readNumber true rest
  | cs => readNumber false cs

mutual

/-- A value, and what follows it. -/
def readValue : (fuel : Nat) → List Char → Except Refusal (Json × List Char)
  | 0, _ => .error .malformed
  | fuel + 1, cs =>
    match cs with
    | '"' :: rest => do
      let (s, rest) ← readString rest
      return (.string s, rest)
    | '[' :: rest =>
      match skip rest with
      | ']' :: rest => .ok (.array [], rest)
      | rest => do
        let (items, rest) ← readItems fuel rest
        return (.array items, rest)
    | '\x7b' :: rest =>
      match skip rest with
      | '\x7d' :: rest => .ok (.object [], rest)
      | rest => do
        let (members, rest) ← readMembers fuel rest
        return (.object (Entries.ofList members), rest)
    | cs => readPlain cs

/-- The items of an array up to its closing bracket. -/
def readItems : (fuel : Nat) → List Char → Except Refusal (List Json × List Char)
  | 0, _ => .error .malformed
  | fuel + 1, cs => do
    let (v, rest) ← readValue fuel cs
    match skip rest with
    | ']' :: rest => return ([v], rest)
    | ',' :: rest =>
      let (vs, rest) ← readItems fuel (skip rest)
      return (v :: vs, rest)
    | _ => .error .malformed

/-- The members of an object up to its closing brace. -/
def readMembers : (fuel : Nat) → List Char → Except Refusal (List (String × Json) × List Char)
  | 0, _ => .error .malformed
  | fuel + 1, cs =>
    match cs with
    | '"' :: rest => do
      let (name, rest) ← readString rest
      match skip rest with
      | ':' :: rest =>
        let (v, rest) ← readValue fuel (skip rest)
        match skip rest with
        | '\x7d' :: rest => return ([(name, v)], rest)
        | ',' :: rest =>
          let (members, rest) ← readMembers fuel (skip rest)
          return ((name, v) :: members, rest)
        | _ => .error .malformed
      | _ => .error .malformed
    | _ => .error .malformed

end

/-- **The value that a text holds.** Each step of the reader takes a character at least, and no
value is nested deeper than the text is long. -/
def read (cs : List Char) : Except Refusal Json := do
  let (v, rest) ← readValue (2 * cs.length + 2) (skip cs)
  if (skip rest).isEmpty then return v else .error .malformed

end Json

end LineCalc
