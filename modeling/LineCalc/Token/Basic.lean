import LineCalc.Arithmetic
/-!
# LineCalc — tokens

A token is a short text. What it does in an expression is its `kind`, which the lexer, the
inspector and the reckoner all go by: an operator, a parenthesis, the sign of an assignment, a
plain literal, a letter that names a variable, or nothing that an expression can hold.
-/

namespace LineCalc

/-- A token of an expression. -/
structure Token where
  text : String
deriving DecidableEq

namespace Token

/-- What a token does in an expression. -/
inductive Kind where
  | operator (op : Operator)
  | opening
  | closing
  | assign
  | numeral (n : Literal)
  | letter
  | other
deriving DecidableEq

/-- The token of one character. -/
def ofChar (c : Char) : Token :=
  ⟨String.singleton c⟩

/-- The plain literal that a token spells. -/
def literal? (t : Token) : Option Literal :=
  Literal.read? t.text.toList

/-- A literal, or nothing an expression can hold. -/
def literalKind (t : Token) : Kind :=
  match t.literal? with
  | some n => .numeral n
  | none => .other

/-- The kind of a token. Operators, parentheses and names are single characters. -/
def kind (t : Token) : Kind :=
  match t.text.toList with
  | [c] =>
    match Operator.ofChar? c with
    | some op => .operator op
    | none =>
      if c = '(' then .opening
      else if c = ')' then .closing
      else if c = '=' then .assign
      else if Text.isAsciiLetter c then .letter
      else t.literalKind
  | _ => t.literalKind

/-- A token that can stand for a name: one ASCII letter. -/
def isLetter (t : Token) : Bool :=
  t.kind = .letter

/-- A token that marks the structure of a line: a parenthesis or the sign of an assignment. -/
def isStructural (t : Token) : Bool :=
  match t.kind with
  | .opening => true
  | .closing => true
  | .assign => true
  | _ => false

/-- The operator that a token writes. -/
def operator? (t : Token) : Option Operator :=
  match t.kind with
  | .operator op => some op
  | _ => none

end Token

end LineCalc
