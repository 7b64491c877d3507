import LineCalc.Error
import LineCalc.Token.Basic
/-!
# LineCalc — reckoning an expression

The tokens of an expression are taken once, left to right, and values are reckoned on the way.
Sums bind loosest, then products, then a run of signs, then powers; sums and products are taken
from the left and powers from the right, and a power's exponent may have signs of its own. What is
still pending is kept as a `Level` for each open parenthesis: a sum and a product that wait for
their right operand, the bases that wait for their exponents, and the sign run being read.

`Reckoner.read` tells the value, or the first thing that is wrong, and in either case how many
tokens were looked at and how many parentheses were open.
-/

namespace LineCalc

/-- What waits, inside one pair of parentheses, for the operand being read. -/
structure Level (V : Type) where
  /-- The left side of a sum or a difference. -/
  sum : Option (V × Operator)
  /-- The left side of a product or a quotient. -/
  product : Option (V × Operator)
  /-- Bases that wait for their exponents, the innermost first, each with the sign before it. -/
  bases : List (Bool × V)
  /-- Whether the run of signs before the operand changes its sign. -/
  negative : Bool

namespace Level

variable {V : Type} [Arithmetic V]

/-- Nothing waits. -/
def empty : Level V := ⟨none, none, [], false⟩

/-- A waiting left side, with its right side there. -/
def join (left : Option (V × Operator)) (v : V) : V :=
  match left with
  | none => v
  | some (u, op) => Arithmetic.apply op u v

/-- Raises the waiting bases one after the other, the innermost first, and takes the sign before
each. -/
def raise (bases : List (Bool × V)) (v : V) : V :=
  bases.foldl
    (fun w (negative, base) => Arithmetic.signed negative (Arithmetic.apply .pow base w)) v

/-- The value of the signs and powers that end with the operand `v`. -/
def power (l : Level V) (v : V) : V :=
  raise l.bases (Arithmetic.signed l.negative v)

/-- The value of the product that ends with the operand `v`. -/
def term (l : Level V) (v : V) : V :=
  join l.product (l.power v)

/-- The value of the level, `v` being its last operand. -/
def total (l : Level V) (v : V) : V :=
  join l.sum (l.term v)

/-- The level once an operator has followed the operand `v`. -/
def push (l : Level V) (v : V) : Operator → Level V
  | .pow => { l with bases := (l.negative, v) :: l.bases, negative := false }
  | .mul => { l with product := some (l.term v, .mul), bases := [], negative := false }
  | .div => { l with product := some (l.term v, .div), bases := [], negative := false }
  | .add => ⟨some (l.total v, .add), none, [], false⟩
  | .sub => ⟨some (l.total v, .sub), none, [], false⟩

end Level

/-- A reckoner between two tokens: the operand it has just read, if one, the level it is at, and
the levels around it, the nearest first. -/
structure Reckoner (V : Type) where
  operand : Option V
  level : Level V
  outer : List (Level V)

/-- What came of reading an expression. -/
structure Reading (V : Type) where
  result : Except ExprError V
  /-- How many tokens were looked at; a missing one counts. -/
  position : Nat
  /-- How many parentheses were open. -/
  depth : Nat

namespace Reckoner

variable {V : Type} [Arithmetic V]

/-- Before the first token. -/
def initial : Reckoner V := ⟨none, Level.empty, []⟩

/-- Takes a token where an operand is needed. A sign changes nothing else; a parenthesis opens a
level unless `limit` are open. -/
def stepOperand (limit : Int) (scope : String → Option V) (r : Reckoner V) (t : Token) :
    Except ExprError (Reckoner V) :=
  match t.kind with
  | .operator .add => .ok r
  | .operator .sub => .ok { r with level := { r.level with negative := !r.level.negative } }
  | .opening =>
    if limit < (r.outer.length : Int) + 1 then .error (.tooDeep limit)
    else .ok ⟨none, Level.empty, r.level :: r.outer⟩
  | .numeral n => .ok { r with operand := some (Arithmetic.ofLiteral n) }
  | .letter =>
    match scope t.text with
    | some v => .ok { r with operand := some v }
    | none => .error (.unknownVariable t.text)
  | _ => .error (.unexpected t.text)

/-- Takes a token after the operand `v`: an operator, or the parenthesis that closes the level. -/
def stepOperator (r : Reckoner V) (v : V) (t : Token) : Except ExprError (Reckoner V) :=
  match t.kind, r.outer with
  | .operator op, _ => .ok { r with operand := none, level := r.level.push v op }
  | .closing, l :: outer => .ok ⟨some (r.level.total v), l, outer⟩
  | _, _ => .error (.unexpected t.text)

/-- Takes one token. -/
def step (limit : Int) (scope : String → Option V) (r : Reckoner V) (t : Token) :
    Except ExprError (Reckoner V) :=
  match r.operand with
  | none => r.stepOperand limit scope t
  | some v => r.stepOperator v t

/-- What came of the expression if it ends here. -/
def finish (r : Reckoner V) : Except ExprError V :=
  match r.operand, r.outer with
  | some v, [] => .ok (r.level.total v)
  | none, [] => .error .unexpectedEnd
  | _, _ :: _ => .error .unmatchedParen

/-- Whether the reckoner is past a whole expression. It then refuses a token without taking it. -/
def isComplete (r : Reckoner V) : Bool :=
  r.operand.isSome && r.outer.isEmpty

/-- How many parentheses are open when `r` stops with an error: the one that goes too deep
counts. -/
def depthAt (r : Reckoner V) : ExprError → Nat
  | .tooDeep _ => r.outer.length + 1
  | _ => r.outer.length

/-- Reads on from `position`. -/
def run (limit : Int) (scope : String → Option V) (r : Reckoner V) (position : Nat) :
    List Token → Reading V
  | [] => ⟨r.finish, if r.isComplete then position else position + 1, r.outer.length⟩
  | t :: ts =>
    match r.step limit scope t with
    | .ok r' => run limit scope r' (position + 1) ts
    | .error e => ⟨.error e, if r.isComplete then position else position + 1, r.depthAt e⟩

/-- **Reads an expression** whose names have their values in `scope`, with at most `limit` open
parentheses. -/
def read (limit : Int) (scope : String → Option V) (tokens : List Token) : Reading V :=
  match tokens with
  | [] => ⟨.error .empty, 0, 0⟩
  | _ => run limit scope initial 0 tokens

/-- The value of an expression. -/
def evaluate (limit : Int) (scope : String → Option V) (tokens : List Token) :
    Except ExprError V :=
  (read limit scope tokens).result

end Reckoner

end LineCalc
