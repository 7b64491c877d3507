import LineCalc.Environment
import LineCalc.Error
import LineCalc.Reckoner
import LineCalc.Token.Lexer
/-!
# LineCalc — what comes of a line

A submitted line is one of three things. `name = expression` gives a name a value; an expression
without free variables has a value; an expression with one free variable is plotted over a domain.
Everything else is an error, with the free variables that were found. Nothing is changed by
evaluating a line: what its outcome means for a session is the session's business.

The free variables are the tokens that are no number, no operator, no part of a line's structure, and
not bound. The first equals sign of a line parts a name from the tokens of its value; any later one
is left in the value, where no expression takes it. A plot is a list of pairs: each point of the
domain, and the value of the expression with the name bound to that point.
-/

namespace LineCalc

/-! ## Free variables -/

/-- Whether a token has to be bound to have a meaning. -/
def Token.isFree (bound : String → Bool) (t : Token) : Bool :=
  match t.kind with
  | .letter => !bound t.text
  | .other => !bound t.text
  | _ => false

/-- **The free variables of an expression**, in order. -/
def unknowns (bound : String → Bool) (tokens : List Token) : List String :=
  ((tokens.filter (·.isFree bound)).map (·.text)).eraseDups

/-! ## The two sides of an assignment -/

/-- A name, and the tokens of the value it is to get. -/
structure Assignment where
  name : String
  value : List Token
deriving DecidableEq

namespace Assignment

/-- Whether a token is the sign of an assignment. -/
def isSign (t : Token) : Bool :=
  t.kind = .assign

/-- **The assignment that tokens make.** Before the first sign there must be one letter. -/
def ofTokens (tokens : List Token) : Except AssignmentError Assignment :=
  match tokens.dropWhile (! isSign ·), tokens.takeWhile (! isSign ·) with
  | [], _ => .error .missing
  | _ :: _, [] => .error .missingName
  | _ :: value, target =>
    match target with
    | [t] => if t.isLetter then .ok ⟨t.text, value⟩ else .error (.invalidTarget t.text)
    | _ => .error (.invalidTarget (String.join (target.map (·.text))))

end Assignment

/-! ## An expression as a function of one name -/

namespace Plot

variable {V : Type} [Arithmetic V]

/-- A scope in which a name has the value `v`. -/
def bind (scope : String → Option V) (name : String) (v : V) : String → Option V :=
  fun n => if n = name then some v else scope n

/-- The pair of one point. -/
def sample (limit : Int) (scope : String → Option V) (name : String) (tokens : List Token) (x : V) :
    Except ExprError (V × V) :=
  (Reckoner.evaluate limit (bind scope name x) tokens).map fun y => (x, y)

/-- **The pairs of all points**, in their order, or the first error met. -/
def samples (limit : Int) (scope : String → Option V) (name : String) (tokens : List Token)
    (domain : List V) : Except ExprError (List (V × V)) :=
  domain.mapM (sample limit scope name tokens)

end Plot

/-! ## Outcomes -/

/-- What came of a line. -/
inductive Outcome (V : Type) where
  | value (v : V)
  | assigned (name : String) (v : V)
  | plotted (name : String) (samples : List (V × V))
  | failed (error : LineError) (unknowns : List String)

namespace Outcome

variable {V : Type} [Arithmetic V]

/-- Whether a line was accepted. -/
def ok : Outcome V → Bool
  | failed _ _ => false
  | _ => true

/-- The value of tokens as an outcome. -/
def ofTokens (limit : Int) (scope : String → Option V) (tokens : List Token) : Outcome V :=
  match Reckoner.evaluate limit scope tokens with
  | .ok v => .value v
  | .error e => .failed (.expr e) []

/-- The plot of tokens over a domain as an outcome. -/
def ofPlot (limit : Int) (scope : String → Option V) (name : String) (tokens : List Token)
    (domain : List V) : Outcome V :=
  match Plot.samples limit scope name tokens domain with
  | .ok samples => .plotted name samples
  | .error e => .failed (.expr e) [name]

/-- The outcome of an expression. -/
def ofExpression (limit : Int) (scope : String → Option V) (tokens : List Token)
    (domain : List V) : Outcome V :=
  match unknowns (fun name => (scope name).isSome) tokens with
  | [] => ofTokens limit scope tokens
  | [name] => ofPlot limit scope name tokens domain
  | names => .failed (.unknownVariables names) names

/-- The outcome of an assignment. A free variable in it is an error. -/
def ofAssignment (limit : Int) (scope : String → Option V) (a : Assignment) : Outcome V :=
  match unknowns (fun name => (scope name).isSome) a.value with
  | first :: second :: rest => .failed (.unknownVariables (first :: second :: rest))
      (first :: second :: rest)
  | names =>
    match Reckoner.evaluate limit scope a.value with
    | .ok v => .assigned a.name v
    | .error e => .failed (.expr e) names

/-- **The outcome of a line.** An equals sign anywhere makes it an assignment. -/
def ofLine (limit : Int) (env : Environment V) (domain : List V) (text : String) : Outcome V :=
  let tokens := Token.ofText text
  if tokens.any Assignment.isSign then
    match Assignment.ofTokens tokens with
    | .ok a => ofAssignment limit env.value? a
    | .error e => .failed (.assignment e) []
  else ofExpression limit env.value? tokens domain

end Outcome

end LineCalc
