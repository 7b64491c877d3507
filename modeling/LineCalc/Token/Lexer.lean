import LineCalc.Token.Basic
/-!
# LineCalc — from a line to tokens

`Token.ofText` cuts a line into tokens in one pass. Digits with at most one point make a number;
letters stand alone; operators and parentheses are single characters; every other character only
separates. Where two operands meet without an operator a `*` is put between them: `7x`, `3(2+2)`,
`(1)(2)`, `x y`. A number directly after a number, as in `1.2.3`, gets none.
-/

namespace LineCalc

/-- What the last token leaves on the left of the next one. -/
inductive LeftSide where
  /-- No operand: the start, an operator, an opening parenthesis or a lone point. -/
  | bare
  /-- A number. -/
  | number
  /-- A name or a closing parenthesis. -/
  | operand
deriving DecidableEq

/-- The lexer between two characters: the number it is in, and what stands to the left of it. The
characters of the number are kept last first. -/
structure Lexer where
  run : Option (List Char)
  left : LeftSide
deriving DecidableEq

namespace Lexer

/-- The inserted operator. -/
def star : Token := Token.ofChar '*'

/-- Before a name or an opening parenthesis, every operand on the left calls for a star. -/
def starBeforeName (left : LeftSide) : List Token :=
  if left = .bare then [] else [star]

/-- Before a number, a number on the left does not. -/
def starBeforeNumber (left : LeftSide) : List Token :=
  if left = .operand then [star] else []

/-- What a finished number leaves: a lone point is no operand. -/
def sideOfRun (run : List Char) : LeftSide :=
  if run.any Text.isAsciiDigit then .number else .bare

/-- Takes a character outside a number: the lexer after it, and the tokens given out. -/
def start (left : LeftSide) (c : Char) : Lexer × List Token :=
  if Text.isAsciiDigit c ∨ c = '.' then (⟨some [c], left⟩, starBeforeNumber left)
  else if Text.isAsciiLetter c then (⟨none, .operand⟩, starBeforeName left ++ [Token.ofChar c])
  else if c = '(' then (⟨none, .bare⟩, starBeforeName left ++ [Token.ofChar c])
  else if c = ')' then (⟨none, .operand⟩, [Token.ofChar c])
  else if (Operator.ofChar? c).isSome ∨ c = '=' then (⟨none, .bare⟩, [Token.ofChar c])
  else (⟨none, left⟩, [])

/-- Whether a character continues a number: a digit, or the first point in it. -/
def continues (run : List Char) (c : Char) : Bool :=
  Text.isAsciiDigit c || (c == '.' && !run.contains '.')

/-- The token of a finished number. -/
def runToken (run : List Char) : Token :=
  ⟨String.ofList run.reverse⟩

/-- Takes one character: the lexer after it, and the tokens given out. -/
def step (l : Lexer) (c : Char) : Lexer × List Token :=
  match l.run with
  | none => start l.left c
  | some run =>
    if continues run c then (⟨some (c :: run), l.left⟩, [])
    else
      let (l', out) := start (sideOfRun run) c
      (l', runToken run :: out)

/-- The tokens of the characters still to come. -/
def scan (l : Lexer) : List Char → List Token
  | [] =>
    match l.run with
    | none => []
    | some run => [runToken run]
  | c :: cs =>
    let (l', out) := l.step c
    out ++ scan l' cs

end Lexer

/-- **The tokens of a line**, with a star wherever two operands meet. -/
def Token.ofText (text : String) : List Token :=
  Lexer.scan ⟨none, .bare⟩ text.toList

end LineCalc
